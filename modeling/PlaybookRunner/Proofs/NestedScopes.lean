import PlaybookRunner.Proofs.Extents
import PlaybookRunner.Proofs.MentionedNames
import PlaybookRunner.Proofs.Spared

/-!
# What a task sees inside module calls

The scope of a task inside module calls is a stack: for each open call a table of its
arguments, in which the facts of its tasks land as well, the variables of its includes, and a
table of its item. What lands in the middle of the stack leaves the tables below as they are.
So a reading finds what the innermost open call binds first, and comes to the play last.
-/

namespace PlaybookRunner

variable {σ α : Type} {w v : World σ} {base outer scope : Scope} {key : String} {play : Nat}

namespace World

/-- The facts are bound in the table that owns the scope, and nowhere else. -/
theorem getElem?_extend {i : Nat} {tb : Table} (howner : scope.owner? = some i)
    (hi : w.tables[i]? = some tb) (facts : Vars) :
    (w.extend scope facts).tables[i]? = some { tb with vars := tb.vars.extend facts } := by
  rw [extend_of_owner howner, getElem?_modifyTable, if_pos rfl, hi]
  rfl

/-- A command changes the tables by binding its facts. -/
theorem Settled.tables_run (h : w.Settled) (host : Host σ) (scope : Scope) (t : Task)
    (command : Command) :
    ((command.run host scope t).run w).2.tables = (w.extend scope command.facts).tables := by
  by_cases hfacts : command.facts = []
  · have hagree : Agree w.Untouched (command.run host scope t) (command.run host scope t) :=
      Command.agree_runWith_of_facts (Untouched.kept w).setHost (Untouched.agree_force w)
        (fun v hv => by rw [hfacts]; exact hv) t
    rw [hfacts]
    exact (hagree.keeps ⟨h.factless, rfl⟩).tables
  · cases command with
    | setFact facts =>
      have hran : ((Command.setFact facts).run host scope t).run w =
          (Command.runSetFact scope facts).run w := rfl
      unfold Command.runSetFact at hran
      simp only [Command.facts] at hfacts ⊢
      rw [hran]
      cases hraw : Dict.get? facts Arguments.rawKey with
      | some raw => simp [hraw] at hfacts
      | none =>
        have hne : ¬ facts.isEmpty = true := by simpa [hraw] using hfacts
        simp only [if_neg hne]
        rfl
    | _ => exact absurd rfl hfacts

/-- The table holds these variables, binds no futures, and is not that of the play. -/
def Holds (w : World σ) (play i : Nat) (vars : Vars) : Prop :=
  w.tables[i]? = some { vars } ∧ i ≠ play

theorem Holds.shownIn {i : Nat} {vars : Vars} (h : w.Holds play i vars) (key : String) :
    w.shownIn key (.table i) = Dict.get? vars key := by
  have htable : w.table i = { vars } := by rw [table_eq, h.1]; rfl
  simp only [World.shownIn, htable]
  rfl

/-- All tables but that of the play are the same. -/
theorem Holds.mono {i : Nat} {vars : Vars} (h : w.Holds play i vars)
    (hkept : ∀ i < w.tables.size, i ≠ play → v.tables[i]? = w.tables[i]?) :
    v.Holds play i vars :=
  ⟨(hkept i (Array.getElem?_eq_some_iff.mp h.1).1 h.2).trans h.1, h.2⟩

end World

namespace Runner

open World

/-- An item as a variable. -/
def itemVars (item : Option Value) : Vars := (item.map fun x => ("item", x)).toList

namespace OpenCall

/-- What an open call binds, innermost first. -/
def layers (c : OpenCall) : List Vars := [c.vars, c.task.includeVars, itemVars c.item]

end OpenCall

/-- An item has a table of its own over the scope. -/
inductive Itemized (w : World σ) (play : Nat) (outer : Scope) : Option Value → Scope → Prop
  | once : Itemized w play outer none outer
  | item {x : Value} {i : Nat} (h : w.Holds play i [("item", x)]) :
      Itemized w play outer (some x) (.table i :: outer)

/-- The scope is a stack of open calls over a base, the innermost first. -/
inductive Stacked (w : World σ) (play : Nat) (base : Scope) : List OpenCall → Scope → Prop
  | base : Stacked w play base [] base
  | call {c : OpenCall} {calls : List OpenCall} {outer scope : Scope} {i : Nat}
      (h : Stacked w play base calls outer) (hitem : Itemized w play outer c.item scope)
      (hvars : w.Holds play i c.vars) :
      Stacked w play base (c :: calls) (.table i :: c.task.scope scope)

theorem Itemized.mono {item : Option Value} (h : Itemized w play outer item scope)
    (hkept : ∀ i < w.tables.size, i ≠ play → v.tables[i]? = w.tables[i]?) :
    Itemized v play outer item scope := by
  cases h with
  | once => exact .once
  | item h => exact .item (h.mono hkept)

theorem Stacked.mono {calls : List OpenCall} (h : Stacked w play base calls scope)
    (hkept : ∀ i < w.tables.size, i ≠ play → v.tables[i]? = w.tables[i]?) :
    Stacked v play base calls scope := by
  induction h with
  | base => exact .base
  | call _ hitem hvars ih => exact .call ih (hitem.mono hkept) (hvars.mono hkept)

/-- What the first of some layers binds a name to. -/
def firstBound (layers : List Vars) (key : String) : Option Value :=
  layers.findSome? (Dict.get? · key)

theorem firstBound_cons (vars : Vars) (layers : List Vars) (key : String) :
    firstBound (vars :: layers) key = (Dict.get? vars key).or (firstBound layers key) := by
  unfold firstBound
  rw [List.findSome?_cons]
  cases Dict.get? vars key <;> rfl

theorem Itemized.shown {item : Option Value} (h : Itemized w play outer item scope)
    (key : String) :
    w.shown scope key = (Dict.get? (itemVars item) key).or (w.shown outer key) := by
  cases h with
  | once => rfl
  | item h =>
    rw [World.shown, h.shownIn]
    rfl

theorem shown_scope (t : Task) (key : String) :
    w.shown (t.scope scope) key = (Dict.get? t.includeVars key).or (w.shown scope key) := rfl

theorem Stacked.shown {calls : List OpenCall} (h : Stacked w play base calls scope)
    (key : String) :
    w.shown scope key = (firstBound (calls.flatMap OpenCall.layers) key).or (w.shown base key) := by
  induction h with
  | base => rfl
  | @call c calls outer scope i _ hitem hvars ih =>
    have hlayers : (c :: calls).flatMap OpenCall.layers = c.vars :: c.task.includeVars ::
        itemVars c.item :: calls.flatMap OpenCall.layers := rfl
    rw [World.shown, hvars.shownIn, shown_scope, hitem.shown, ih, hlayers]
    simp only [firstBound_cons, Option.or_assoc]

open Step RunState

variable {setup : Setup σ} {s u : RunState σ} {t : Task} {depth i : Nat} {tb : Table} {b : Bool}

theorem spares_of_goes {x : Step σ α} {n : Nat} (hx : Goes n s.current.table x)
    (hsettled : s.world.Settled) (hsize : n ≤ s.world.tables.size) {o : Except Stop α}
    {v : RunState σ} (hrun : x.run.run s = (o, v)) :
    v.Ready n s.current.table ∧ s.world.Spares n s.current.table v.world := by
  have hready : s.Ready n s.current.table := ⟨hsettled, hsize, rfl⟩
  have hended : s.Ended n o v := Ends.of_run (hx s hready) hrun
  exact ⟨hended.ready hready, hended.spares hready⟩

/-- Of the tables other than that of the play, a completion changes none. -/
theorem getElem?_afterCompletion (hne : i ≠ s.current.table) (t : Task) (result : TaskResult) :
    (s.afterCompletion t result).world.tables[i]? = s.world.tables[i]? := by
  unfold afterCompletion
  cases t.register with
  | none => rfl
  | some name =>
    change (s.world.modifyTable s.current.table _).tables[i]? = _
    rw [World.getElem?_modifyTable, if_neg hne.symm]

/-- A command that runs at once or is dispatched binds its facts in its scope. -/
theorem getElem?_performing (hsettled : s.world.Settled) (hne : i ≠ s.current.table)
    (howner : scope.owner? = some i) (hi : s.world.tables[i]? = some tb) (t : Task) (name : String)
    (command : Command) :
    ((performing setup t name command scope).run.run s).2.world.tables[i]? =
      some { tb with vars := tb.vars.extend command.facts } := by
  unfold performing
  cases futureName? t name with
  | none =>
    have hfacts := getElem?_extend howner hi command.facts
    rw [← hsettled.tables_run setup.host scope t command] at hfacts
    simp only [run_runCommand]
    generalize (command.run setup.host scope t).run s.world = done at hfacts
    exact (getElem?_afterCompletion (s := { s with world := done.2 }) hne t _).trans hfacts
  | some future =>
    let job := Job.command command scope t
    have hdeferring : (s.deferring future job).tables[i]? = some tb := by
      rw [tables_deferring, World.getElem?_modifyTable, if_neg hne.symm, hi]
    have hfacts := getElem?_extend howner hdeferring command.facts
    rw [← (settled_deferring hsettled future job).tables_run setup.host scope t] at hfacts
    dsimp only
    rw [run_bind_of_ok (run_dispatch t name future command scope s)]
    exact hfacts

/-- A prepared task binds its own facts in its scope, and what it calls binds none there. -/
theorem getElem?_acting (setup : Setup σ) (s : RunState σ) (scope : Scope)
    {call : Task → Scope → Step σ Bool} (hcalls : CallGoes (i + 1) s.current.table call)
    (hsettled : s.world.Settled) (hne : i ≠ s.current.table) (howner : scope.owner? = some i)
    (hi : s.world.tables[i]? = some tb) (t : Task) (prepared : Prepared) :
    ((acting setup call t scope prepared).run.run s).2.world.tables[i]? =
      some { tb with vars := tb.vars.extend (ownFacts prepared) } := by
  have hlt : i < s.world.tables.size := (Array.getElem?_eq_some_iff.mp hi).1
  unfold acting ownFacts
  cases prepared.action with
  | call m =>
    rcases hrun : (callModule call t prepared m scope).run.run s with ⟨o, v⟩
    have hspares := (spares_of_goes (goes_callModule hcalls t prepared m scope)
      hsettled hlt hrun).2
    exact (hspares.tables i (Nat.lt_succ_self i) hne).trans hi
  | run command => exact getElem?_performing hsettled hne howner hi t prepared.name command

/-- A task that ends well has bound its facts in the scope that it was given. -/
theorem getElem?_runTask (hsettled : s.world.Settled) (hne : i ≠ s.current.table)
    (howner : Scope.owner? outer = some i) (hi : s.world.tables[i]? = some tb)
    (h : (runTask setup depth t outer).run.run s = (.ok b, u)) :
    u.world.tables[i]? = some { tb with vars := tb.vars.extend (factsIn setup outer s t) } := by
  have hlt : i < s.world.tables.size := (Array.getElem?_eq_some_iff.mp hi).1
  cases depth with
  | zero => cases h
  | succ depth =>
    have hcalls : CallGoes (i + 1) s.current.table (runTask setup depth) := goes_runTask setup depth
    obtain ⟨due, w, hdue, hrun⟩ := runTaskWith_ok h
    obtain rfl : s.world = w := (hsettled.run_due setup t outer).symm.trans (congrArg Prod.snd hdue)
    unfold factsIn
    rw [hdue]
    cases due with
    | false =>
      cases hrun
      cases t.items <;> exact hi
    | true =>
      cases hitems : t.items with
      | some items =>
        -- The turns have tables of their own, all of them above this one.
        have hrun := (run_items_of_due hdue hitems).symm.trans h
        have hspares := (spares_of_goes (goes_anyChanged items (goes_runItem hcalls t outer))
          hsettled hlt hrun).2
        exact (hspares.tables i (Nat.lt_succ_self i) hne).trans hi
      | none =>
        let T : Turn σ := { task := t, scope := outer, state := s }
        obtain ⟨prepared, w, hprepared, hacting⟩ :=
          T.run_ok ((run_once_of_due hdue hitems).symm.trans h)
        have hprepared : (t.prepare setup s.current.play (t.scope outer)).run s.world =
          (.ok prepared, w) := hprepared
        obtain rfl : s.world = w :=
          (hsettled.run_prepare setup _ t _).symm.trans (congrArg Prod.snd hprepared)
        have hacted := getElem?_acting setup (T.started prepared s.world) T.inner hcalls hsettled
          hne howner hi t prepared
        rw [hacting] at hacted
        simp only [hprepared]
        exact hacted

/-- So have tasks in a row, one after the other. -/
theorem getElem?_tasks {tasks : List Task} (hsettled : s.world.Settled)
    (hne : i ≠ s.current.table) (howner : Scope.owner? outer = some i)
    (hi : s.world.tables[i]? = some tb)
    (h : (anyChanged (fun sub => runTask setup depth sub outer) tasks).run.run s = (.ok b, u)) :
    u.world.tables[i]? =
      some { tb with vars := tb.vars.extend (factsInTurn setup depth outer tasks s) } := by
  induction tasks generalizing s tb b with
  | nil =>
    cases h
    exact hi
  | cons t rest ih =>
    obtain ⟨first, v, others, hfirst, hothers, -⟩ := anyChanged_cons_ok h
    have hlt : i < s.world.tables.size := (Array.getElem?_eq_some_iff.mp hi).1
    have hgoes : Goes i s.current.table (runTask setup depth t outer) :=
      goes_runTask setup depth t outer fun j hj => by
        rw [howner] at hj
        cases hj
        exact .inr (Nat.le_refl i)
    have hready := (spares_of_goes hgoes hsettled (Nat.le_of_lt hlt) hfirst).1
    have hrest := ih hready.settled (hready.table ▸ hne)
      (getElem?_runTask hsettled hne howner hi hfirst) hothers
    have hstate : ((runTask setup depth t outer).run.run s).2 = v := congrArg Prod.snd hfirst
    rw [hrest, factsInTurn, hstate]
    unfold Dict.extend
    rw [List.foldl_append]

/-- Of the tables there were, those apart from that of the play are the same. -/
structure Advances (s u : RunState σ) : Prop where
  settled : u.world.Settled
  table : u.current.table = s.current.table
  size_le : s.world.tables.size ≤ u.world.tables.size
  kept : ∀ i < s.world.tables.size, i ≠ s.current.table →
    u.world.tables[i]? = s.world.tables[i]?

theorem advances_of_goes {x : Step σ α} (hx : Goes s.world.tables.size s.current.table x)
    (hsettled : s.world.Settled) {o : Except Stop α} (hrun : x.run.run s = (o, u)) :
    Advances s u := by
  obtain ⟨hready, hspares⟩ := spares_of_goes hx hsettled (Nat.le_refl _) hrun
  exact ⟨hready.settled, hready.table, hready.size_le, hspares.tables⟩

theorem Advances.trans {v : RunState σ} (h : Advances s u) (h' : Advances u v) : Advances s v where
  settled := h'.settled
  table := h'.table.trans h.table
  size_le := Nat.le_trans h.size_le h'.size_le
  kept i hi hne := (h'.kept i (Nat.lt_of_lt_of_le hi h.size_le) (h.table ▸ hne)).trans
    (h.kept i hi hne)

theorem advances_newTable (hsettled : s.world.Settled) (vars : Vars) :
    Advances s { s with world := (s.world.newTable vars).2 } where
  settled := hsettled.of_futures rfl
  table := rfl
  size_le := (writes_newTable vars s.world).size_le
  kept _ hi _ := World.getElem?_newTable_of_lt hi vars

theorem holds_newTable (htable : play < w.tables.size) (vars : Vars) :
    (w.newTable vars).2.Holds play w.tables.size vars :=
  ⟨Array.getElem?_push_size, Nat.ne_of_gt htable⟩

/-- In a turn the scope of the task has a table for the item, if there is one. -/
theorem TakesTurn.itemized {T : Turn σ} (h : TakesTurn setup (runTask setup depth) t outer s T)
    (hsettled : s.world.Settled) (htable : s.current.table < s.world.tables.size) :
    Advances s T.state ∧ Itemized T.state.world s.current.table outer T.item T.scope := by
  cases h with
  | once hdue hitems =>
    obtain rfl := (hsettled.run_due setup t outer).symm.trans (congrArg Prod.snd hdue)
    exact ⟨⟨hsettled, rfl, Nat.le_refl _, fun _ _ _ => rfl⟩, .once⟩
  | item hdue hitems hbefore =>
    obtain rfl := (hsettled.run_due setup t outer).symm.trans (congrArg Prod.snd hdue)
    have hbefore := advances_of_goes
      (goes_anyChanged _ (goes_runItem (goes_runTask setup depth) t outer)) hsettled hbefore
    have htable := Nat.lt_of_lt_of_le htable hbefore.size_le
    exact ⟨hbefore.trans (advances_newTable hbefore.settled _), .item (holds_newTable htable _)⟩

/-- An open call has a table of its arguments and of the facts of its tasks. -/
theorem Enters.holds {T : Turn σ} {c : OpenCall} {sub : Task}
    (h : Enters setup depth T c sub scope u) (hsettled : T.state.world.Settled)
    (htable : T.state.current.table < T.state.world.tables.size) :
    Advances T.state u ∧ c.task = T.task ∧ c.item = T.item ∧
      ∃ i, scope = .table i :: T.inner ∧ u.world.Holds T.state.current.table i c.vars := by
  cases h with
  | @task prepared w m before after sub b u hprepared haction htasks hbefore =>
    obtain rfl : T.state.world = w :=
      (hsettled.run_prepare setup _ _ _).symm.trans (congrArg Prod.snd hprepared)
    let opened := T.opened prepared T.state.world
    have hopened : Advances T.state opened := by
      have hnew := advances_newTable (s := T.started prepared T.state.world) hsettled
        prepared.params
      exact ⟨hnew.settled, hnew.table, hnew.size_le, hnew.kept⟩
    obtain ⟨hi, hne⟩ := holds_newTable htable prepared.params
    have hgoes : Goes T.state.world.tables.size T.state.current.table (anyChanged
        (fun sub => runTask setup depth sub (.table T.state.world.tables.size :: T.inner))
        before) := goes_anyChanged before fun sub => goes_runTask setup depth sub _ fun j hj => by
      cases hj
      exact .inr (Nat.le_refl _)
    obtain ⟨hready, hspares⟩ := spares_of_goes (s := opened) hgoes hopened.settled
      hopened.size_le hbefore
    refine ⟨⟨hready.settled, hready.table, hready.size_le, fun i hi hne => ?_⟩, rfl, rfl, _, rfl,
      ?_, hne⟩
    · exact (hspares.tables i hi hne).trans (hopened.kept i hi hne)
    · exact getElem?_tasks (s := opened) hopened.settled hne rfl hi hbefore

/-- The scope of a task inside calls is the stack of the calls. -/
theorem Reaches.stacked {calls around : List OpenCall} {T : Turn σ}
    (h : Reaches setup depth t outer s calls T) (hsettled : s.world.Settled)
    (htable : s.current.table < s.world.tables.size)
    (hstack : Stacked s.world s.current.table base around outer) :
    Advances s T.state ∧ ∃ inside, Stacked T.state.world s.current.table base (calls ++ around)
      inside ∧ Itemized T.state.world s.current.table inside T.item T.scope := by
  induction h generalizing around with
  | turn hturn =>
    obtain ⟨hadvances, hitem⟩ := hturn.itemized hsettled htable
    exact ⟨hadvances, _, hstack.mono hadvances.kept, hitem⟩
  | @inside depth t sub outer scope s u T T' c calls hturn henters hsub ih =>
    obtain ⟨hadvances, hitem⟩ := hturn.itemized hsettled htable
    have htable' : T.state.current.table < T.state.world.tables.size := by
      rw [hadvances.table]
      exact Nat.lt_of_lt_of_le htable hadvances.size_le
    -- The call puts its table, its includes and its item on the stack, and nothing that runs
    -- from here on writes to the tables that are below.
    obtain ⟨hopened, htask, hitem', i, rfl, hvars⟩ := henters.holds hadvances.settled htable'
    have hu := hadvances.trans hopened
    have hkept := hopened.kept
    rw [hadvances.table] at hvars hkept
    have hstack' : Stacked u.world s.current.table base (c :: around)
        (.table i :: c.task.scope T.scope) :=
      .call ((hstack.mono hadvances.kept).mono hkept) (hitem' ▸ hitem.mono hkept) hvars
    rw [htask] at hstack'
    obtain ⟨hsub, hinside⟩ := ih hu.settled (hu.table ▸ Nat.lt_of_lt_of_le htable hu.size_le)
      (hu.table ▸ hstack')
    rw [hu.table, List.append_cons] at hinside
    exact ⟨hu.trans hsub, hinside⟩

namespace Turn

/-- What is bound between the task of a turn and the play, innermost first. -/
def layers (T : Turn σ) (calls : List OpenCall) : List Vars :=
  T.task.includeVars :: itemVars T.item :: calls.flatMap OpenCall.layers

/-- What the task of a turn sees under a name: what the layers bind first, else what a future
of the play has come to, else a variable of the play, else one of the root. -/
def sees (setup : Setup σ) (T : Turn σ) (calls : List OpenCall) (key : String) : Option Value :=
  let own := T.state.world.table T.state.current.table
  (firstBound (T.layers calls) key).or
    (((Dict.get? own.futures key).bind fun i => (T.state.world.answer? i).map outcomeValue).or
      ((Dict.get? own.vars key).or (T.state.world.shown setup.root key)))

end Turn

theorem shown_playScope (hsettled : w.Settled) (st : PlayState) (key : String) :
    w.shown (playScope setup st) key =
      ((Dict.get? (w.table st.table).futures key).bind fun i =>
        (w.answer? i).map outcomeValue).or
        ((Dict.get? (w.table st.table).vars key).or (w.shown setup.root key)) := by
  rw [playScope, World.shown, World.shownIn]
  cases Dict.get? (w.table st.table).futures key with
  | none => rfl
  | some j =>
    obtain ⟨o, ho⟩ := hsettled.exists_answer j
    simp only [ho, Option.bind_some, Option.map_some, Option.some_or]

/-- Whatever calls, loops and includes are around a task, each name in its texts means to it
what is bound first going outwards: in the variables of its includes, its own item, the
arguments of the innermost call with the facts of the tasks before it, the variables of the
includes of that call, the item of that call, and so on for each call that is open; then come
the futures of the play, its variables, and the root. A name that none of them binds is
undefined. -/
theorem nested_task_sees_first_binding (setup : Setup σ) {s : RunState σ}
    (hsettled : s.world.Settled) (htable : s.current.table < s.world.tables.size) {depth : Nat}
    {t : Task} {calls : List OpenCall} {T : Turn σ}
    (h : Reaches setup depth t (playScope setup s.current) s calls T) :
    T.state.current.table = s.current.table ∧
    (∀ key, (T.inner.read setup.host key).run T.state.world =
      (T.sees setup calls key, T.state.world)) ∧
    (∀ text, (Expr.expandTemplate (T.inner.read setup.host) text).run T.state.world =
      (Expr.expandTemplate (fun key => (pure (T.sees setup calls key) : RunM σ _)) text).run
        T.state.world) ∧
    ∀ path, T.sees setup calls (Expr.headName path) = none →
      ((Expr.resolve (T.inner.read setup.host) path).run.run T.state.world).1 =
        .error (.undefined path) := by
  have hbase : Stacked s.world s.current.table (playScope setup s.current) [] _ := .base
  obtain ⟨hadvances, inside, hstack, hitem⟩ := h.stacked hsettled htable hbase
  have hshown (key : String) : T.state.world.shown T.inner key = T.sees setup calls key := by
    rw [List.append_nil] at hstack
    rw [Turn.inner, shown_scope, hitem.shown, hstack.shown, shown_playScope hadvances.settled,
      ← hadvances.table]
    simp only [Turn.sees, Turn.layers, firstBound_cons, Option.or_assoc]
  have hread (key : String) : (T.inner.read setup.host key).run T.state.world =
      (T.sees setup calls key, T.state.world) := by
    rw [(hadvances.settled.settledIn T.inner key).run_read, hshown]
  refine ⟨hadvances.table, hread, fun text => ?_, fun path hnone => ?_⟩
  · have hrelated : Related (fun v v' => v = T.state.world ∧ v' = T.state.world)
        (Expr.expandTemplate (T.inner.read setup.host) text)
        (Expr.expandTemplate (fun key => (pure (T.sees setup calls key) : RunM σ _)) text) := by
      apply Expr.related_expandTemplate
      rintro key - _ _ ⟨rfl, rfl⟩
      rw [hread]
      exact ⟨rfl, rfl, rfl⟩
    obtain ⟨hanswer, hv, hv'⟩ := hrelated _ _ ⟨rfl, rfl⟩
    exact Prod.ext hanswer (hv.trans hv'.symm)
  · change Expr.resolveFrom path ((T.inner.read setup.host _).run T.state.world).1 = _
    rw [hread, hnone]
    rfl

/-- A task that binds a fact, and one whose name reads it. -/
def binding : Task := { name := "s", command := "set_fact", vars := [("k", .string "fact")] }

def telling : Task := { name := "{{ k }}", command := "debug" }

def layered : RunState Unit where
  world := { tables := #[{}, { vars := [("k", .string "play")] }], host := () }
  current := {
    play := { name := "p", modules := [("m", { name := "m", tasks := [binding, telling] })] }
    table := 1 }

/-- A call that binds the name by its includes and in its arguments as well. -/
def calling : Turn Unit where
  task := {
    name := "c"
    command := "m"
    args := "k=argument"
    items := some [.int 7]
    includeVars := [("k", .string "include")] }
  item := some (.int 7)
  scope := [.table 2, .table 1, .table 0]
  state := { layered with world := (layered.world.newTable [("item", .int 7)]).2 }

def calledTasks : Prepared where
  name := "c"
  args := "k=argument"
  params := [("k", .string "argument")]
  action := .call { name := "m", tasks := [binding, telling] }

/-- The tasks of the call before the one that reads. -/
def bound : Except Stop Bool × RunState Unit :=
  (anyChanged (fun sub => runTask reciting 1 sub (.table 3 :: calling.inner)) [binding]).run.run
    (calling.opened calledTasks calling.state.world)

def told : Turn Unit where
  task := telling
  scope := .table 3 :: calling.inner
  state := bound.2

theorem nested_task_sees_first_binding_told :
    layered.world.Settled ∧ layered.current.table < layered.world.tables.size ∧
      ∃ calls, Reaches reciting 2 calling.task (playScope reciting layered.current) layered calls
          told ∧
        ((told.inner.read reciting.host "k").run told.state.world).1 = some (.string "fact") ∧
        ((told.inner.read reciting.host "item").run told.state.world).1 = some (.int 7) := by
  have hsettled : layered.world.Settled := fun i f job hf => by cases hf
  have htable : layered.current.table < layered.world.tables.size := by decide
  have hprepared : calling.Prepares reciting calledTasks calling.state.world := by
    unfold Turn.Prepares
    cbv
  have hbound : bound.1 = .ok false := by cbv
  have hitems : calling.task.items = some ([] ++ .int 7 :: []) := rfl
  have hfirst : (anyChanged (runItem reciting (runTask reciting 1) calling.task
      (playScope reciting layered.current)) []).run.run layered = (.ok false, layered) := rfl
  have htasks : ({ name := "m", tasks := [binding, telling] } : Module).tasks =
    [binding] ++ telling :: [] := rfl
  have hturn : TakesTurn reciting (runTask reciting 1) calling.task
      (playScope reciting layered.current) layered calling :=
    .item (w := layered.world) (v := layered) rfl hitems hfirst
  have hreaches := Reaches.inside hturn (.task hprepared rfl htasks (Prod.ext hbound rfl))
    (.turn (T := told) (.once rfl rfl))
  obtain ⟨-, hread, -⟩ := nested_task_sees_first_binding reciting hsettled htable hreaches
  refine ⟨hsettled, htable, _, hreaches, ?_⟩
  rw [hread, hread]
  exact ⟨by cbv, by cbv⟩

end Runner

end PlaybookRunner
