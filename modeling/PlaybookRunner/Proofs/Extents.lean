import PlaybookRunner.Proofs.DeferredFacts

/-!
# The extent of a task

A task that is due takes a turn, or one turn for each of its items as long as the turns
before end well. In the turn of a module call the tasks of the module run in order, each
as long as those before end well, and take turns themselves. All turns that are reached
this way, at any depth, are the extent of the task.
-/

namespace PlaybookRunner

variable {σ α : Type}

namespace Runner

open Step RunState

/-- A turn of a task: the item that it is for, if any, the scope that it is taken in, which
the variables of the includes still precede, and the state that it starts from. -/
structure Turn (σ : Type) where
  task : Task
  item : Option Value := none
  scope : Scope
  state : RunState σ

/-- What an open module call shows to its tasks besides what is around it: its arguments,
overlaid with the facts that its tasks have bound so far, the variables of its includes,
and its item. -/
structure OpenCall where
  task : Task
  item : Option Value
  vars : Vars

/-- The turns of a task that are reached when it runs in a scope. -/
inductive TakesTurn (setup : Setup σ) (call : Task → Scope → Step σ Bool) (t : Task)
    (outer : Scope) (s : RunState σ) : Turn σ → Prop
  | once {w : World σ} (hdue : (t.due setup outer).run s.world = (.ok true, w))
      (hitems : t.items = none) :
      TakesTurn setup call t outer s { task := t, scope := outer, state := { s with world := w } }
  | item {w : World σ} {before after : List Value} {x : Value} {b : Bool} {v : RunState σ}
      (hdue : (t.due setup outer).run s.world = (.ok true, w))
      (hitems : t.items = some (before ++ x :: after))
      (hbefore : (anyChanged (runItem setup call t outer) before).run.run { s with world := w } =
        (.ok b, v)) :
      TakesTurn setup call t outer s
        { task := t, item := some x, scope := .table v.world.tables.size :: outer
          state := { v with world := (v.world.newTable [("item", x)]).2 } }

namespace Turn

/-- The scope in which the task of a turn is prepared and run. -/
def inner (T : Turn σ) : Scope := T.task.scope T.scope

/-- The task of the turn is prepared so, and its templates leave that world. -/
def Prepares (setup : Setup σ) (T : Turn σ) (prepared : Prepared) (w : World σ) : Prop :=
  (T.task.prepare setup T.state.current.play T.inner).run T.state.world = (.ok prepared, w)

/-- The state after the start of a prepared task. -/
def started (T : Turn σ) (prepared : Prepared) (w : World σ) : RunState σ :=
  RunState.push (.startTask T.task prepared.name prepared.args prepared.params)
    { T.state with world := w }

/-- The state in which the tasks of a module start, with a table of its arguments. -/
def opened (T : Turn σ) (prepared : Prepared) (w : World σ) : RunState σ :=
  { T.started prepared w with world := (w.newTable prepared.params).2 }

def run (setup : Setup σ) (call : Task → Scope → Step σ Bool) (T : Turn σ) :
    Except Stop Bool × RunState σ :=
  (runOnce setup call T.task T.scope).run.run T.state

/-- The command of the turn, if it does not run deferred, returns a result. -/
def Returns (setup : Setup σ) (T : Turn σ) (result : TaskResult) : Prop :=
  ∃ prepared w command, T.Prepares setup prepared w ∧ prepared.action = .run command ∧
    futureName? T.task prepared.name = none ∧
    ((command.run setup.host T.inner T.task).run w).1 = .ok result

end Turn

/-- The facts that a prepared task binds itself, and not in a module that it calls. -/
def ownFacts (prepared : Prepared) : Vars :=
  match prepared.action with
  | .call _ => []
  | .run command => command.facts

/-- The facts that a task binds in the scope that it is given. A loop binds none there: its
commands bind them for their items. -/
def factsIn (setup : Setup σ) (outer : Scope) (s : RunState σ) (t : Task) : Vars :=
  match t.items, (t.due setup outer).run s.world with
  | none, (.ok true, w) =>
    match ((t.prepare setup s.current.play (t.scope outer)).run w).1 with
    | .ok prepared => ownFacts prepared
    | .error _ => []
  | _, _ => []

/-- The facts that tasks bind in the scope that they run in, one after the other. -/
def factsInTurn (setup : Setup σ) (depth : Nat) (outer : Scope) : List Task → RunState σ → Vars
  | [], _ => []
  | t :: rest, s => factsIn setup outer s t ++
      factsInTurn setup depth outer rest ((runTask setup depth t outer).run.run s).2

/-- In a turn a module call is open, and a task of the module starts. -/
inductive Enters (setup : Setup σ) (depth : Nat) (T : Turn σ) :
    OpenCall → Task → Scope → RunState σ → Prop
  | task {prepared : Prepared} {w : World σ} {m : Module} {before after : List Task} {sub : Task}
      {b : Bool} {v : RunState σ} (hprepared : T.Prepares setup prepared w)
      (haction : prepared.action = .call m) (htasks : m.tasks = before ++ sub :: after)
      (hbefore : (anyChanged (fun u => runTask setup depth u (.table w.tables.size :: T.inner))
        before).run.run (T.opened prepared w) = (.ok b, v)) :
      Enters setup depth T
        { task := T.task, item := T.item
          vars := prepared.params.extend (factsInTurn setup depth
            (.table w.tables.size :: T.inner) before (T.opened prepared w)) }
        sub (.table w.tables.size :: T.inner) v

/-- The turns in the extent of a task, each with the calls that are open around it, the
innermost first. -/
inductive Reaches (setup : Setup σ) :
    Nat → Task → Scope → RunState σ → List OpenCall → Turn σ → Prop
  | turn {depth : Nat} {t : Task} {outer : Scope} {s : RunState σ} {T : Turn σ}
      (hturn : TakesTurn setup (runTask setup depth) t outer s T) :
      Reaches setup (depth + 1) t outer s [] T
  | inside {depth : Nat} {t sub : Task} {outer scope : Scope} {s u : RunState σ} {T T' : Turn σ}
      {c : OpenCall} {calls : List OpenCall}
      (hturn : TakesTurn setup (runTask setup depth) t outer s T)
      (henters : Enters setup depth T c sub scope u)
      (hsub : Reaches setup depth sub scope u calls T') :
      Reaches setup (depth + 1) t outer s (calls ++ [c]) T'

variable {setup : Setup σ} {s v : RunState σ} {t : Task} {outer : Scope} {b : Bool}

theorem anyChanged_cons (run : α → Step σ Bool) (a : α) (as : List α) :
    anyChanged run (a :: as) = (do
      let first ← run a
      let others ← anyChanged run as
      return first || others) := rfl

theorem anyChanged_append (run : α → Step σ Bool) (as bs : List α) :
    anyChanged run (as ++ bs) = (do
      let first ← anyChanged run as
      let others ← anyChanged run bs
      return first || others) := by
  induction as with
  | nil =>
    change anyChanged run bs = anyChanged run bs >>= fun others => pure others
    rw [bind_pure]
  | cons a as ih =>
    rw [List.cons_append, anyChanged_cons, anyChanged_cons, ih]
    simp only [bind_assoc, pure_bind, Bool.or_assoc]

section

variable {run : α → Step σ Bool} {a : α} {as : List α}

theorem anyChanged_cons_ok (h : (anyChanged run (a :: as)).run.run s = (.ok b, v)) :
    ∃ first u others, (run a).run.run s = (.ok first, u) ∧
      (anyChanged run as).run.run u = (.ok others, v) ∧ b = (first || others) := by
  obtain ⟨first, u, hfirst, h⟩ := run_bind_ok h
  obtain ⟨others, u', hothers, h⟩ := run_bind_ok h
  cases h
  exact ⟨first, u, others, hfirst, hothers, rfl⟩

theorem run_anyChanged_cons {u : RunState σ} {first others : Bool}
    (hfirst : (run a).run.run s = (.ok first, u))
    (hothers : (anyChanged run as).run.run u = (.ok others, v)) :
    (anyChanged run (a :: as)).run.run s = (.ok (first || others), v) := by
  rw [anyChanged_cons, run_bind_of_ok hfirst, run_bind_of_ok hothers]
  rfl

/-- A row of parts that ends well has changed something exactly if one of them has. -/
theorem anyChanged_iff_exists (h : (anyChanged run as).run.run s = (.ok b, v)) :
    b = true ↔ ∃ before a after first u w, as = before ++ a :: after ∧
      (anyChanged run before).run.run s = (.ok first, u) ∧ (run a).run.run u = (.ok true, w) := by
  induction as generalizing s b with
  | nil =>
    cases h
    simp
  | cons a as ih =>
    obtain ⟨first, u, others, hfirst, hothers, rfl⟩ := anyChanged_cons_ok h
    constructor
    · intro hchanged
      cases first with
      | true => exact ⟨[], a, as, false, s, u, rfl, rfl, hfirst⟩
      | false =>
        obtain ⟨before, c, after, b, x, y, rfl, hbefore, hc⟩ := (ih hothers).mp hchanged
        exact ⟨a :: before, c, after, _, x, y, rfl, run_anyChanged_cons hfirst hbefore, hc⟩
    · rintro ⟨before, c, after, b, x, y, hsplit, hbefore, hc⟩
      cases before with
      | nil =>
        cases hsplit
        cases hbefore
        rw [hfirst] at hc
        cases hc
        rfl
      | cons _ before =>
        cases hsplit
        obtain ⟨first', u', b', hfirst', hbefore', -⟩ := anyChanged_cons_ok hbefore
        rw [hfirst] at hfirst'
        cases hfirst'
        simp [(ih hothers).mpr ⟨before, c, after, b', x, y, rfl, hbefore', hc⟩]

/-- What follows a part of a row that has ended well. -/
theorem anyChanged_append_ok {before after : List α} {first : Bool} {u : RunState σ}
    (h : (anyChanged run (before ++ after)).run.run s = (.ok b, v))
    (hbefore : (anyChanged run before).run.run s = (.ok first, u)) :
    ∃ others, (anyChanged run after).run.run u = (.ok others, v) := by
  rw [anyChanged_append, run_bind_of_ok hbefore] at h
  obtain ⟨others, u', hothers, h⟩ := run_bind_ok h
  cases h
  exact ⟨others, hothers⟩

end

variable {call : Task → Scope → Step σ Bool}

theorem runTaskWith_ok (h : (runTaskWith setup call t outer).run.run s = (.ok b, v)) :
    ∃ due w, (t.due setup outer).run s.world = (.ok due, w) ∧
      (if due then runDue setup call t outer else return false).run.run { s with world := w } =
        (.ok b, v) := by
  rw [runTaskWith_eq, run_bind_of_ok (run_inWorld _ s)] at h
  rcases hdue : (t.due setup outer).run s.world with ⟨e | due, w⟩
  · rw [hdue] at h
    cases h
  · rw [hdue] at h
    exact ⟨due, w, rfl, h⟩

section

variable {w : World σ} (hdue : (t.due setup outer).run s.world = (.ok true, w))

include hdue

theorem run_once_of_due (hitems : t.items = none) :
    (runTaskWith setup call t outer).run.run s =
      (runOnce setup call t outer).run.run { s with world := w } := by
  rw [runTaskWith_eq, run_bind_of_ok (run_inWorld _ s), hdue]
  simp only [if_pos, runDue, hitems]

theorem run_items_of_due {items : List Value} (hitems : t.items = some items) :
    (runTaskWith setup call t outer).run.run s =
      (anyChanged (runItem setup call t outer) items).run.run { s with world := w } := by
  rw [runTaskWith_eq, run_bind_of_ok (run_inWorld _ s), hdue]
  simp only [if_pos, runDue, hitems]

end

/-- The turns of a task that ends well end well. -/
theorem TakesTurn.run_ok {T : Turn σ} (h : TakesTurn setup call t outer s T)
    (hrun : (runTaskWith setup call t outer).run.run s = (.ok b, v)) :
    ∃ changed u, T.run setup call = (.ok changed, u) := by
  cases h with
  | once hdue hitems =>
    rw [run_once_of_due hdue hitems] at hrun
    exact ⟨b, v, hrun⟩
  | item hdue hitems hbefore =>
    rw [run_items_of_due hdue hitems] at hrun
    obtain ⟨others, hrest⟩ := anyChanged_append_ok hrun hbefore
    obtain ⟨first, u, -, hfirst, -⟩ := anyChanged_cons_ok hrest
    exact ⟨first, u, hfirst⟩

/-- A task that ends well has changed something exactly if one of its turns has. -/
theorem changed_iff_takesTurn (h : (runTaskWith setup call t outer).run.run s = (.ok b, v)) :
    b = true ↔ ∃ T w, TakesTurn setup call t outer s T ∧ T.run setup call = (.ok true, w) := by
  constructor
  · rintro rfl
    obtain ⟨due, w, hdue, hrun⟩ := runTaskWith_ok h
    cases due with
    | false => cases hrun
    | true =>
      cases hitems : t.items with
      | none =>
        rw [run_once_of_due hdue hitems] at h
        exact ⟨_, v, .once hdue hitems, h⟩
      | some items =>
        rw [run_items_of_due hdue hitems] at h
        obtain ⟨before, x, after, first, u, u', rfl, hbefore, hx⟩ :=
          (anyChanged_iff_exists h).mp rfl
        exact ⟨_, u', .item hdue hitems hbefore, hx⟩
  · rintro ⟨T, u, hturn, hchanged⟩
    cases hturn with
    | once hdue hitems =>
      rw [run_once_of_due hdue hitems] at h
      cases h.symm.trans hchanged
      rfl
    | item hdue hitems hbefore =>
      rw [run_items_of_due hdue hitems] at h
      exact (anyChanged_iff_exists h).mpr ⟨_, _, _, _, _, u, rfl, hbefore, hchanged⟩

namespace Turn

variable {T : Turn σ}

namespace Prepares

variable {prepared prepared' : Prepared} {w w' : World σ} {m : Module} {command : Command}
  (h : T.Prepares setup prepared w)

include h

theorem unique (h' : T.Prepares setup prepared' w') : prepared' = prepared ∧ w' = w := by
  cases h.symm.trans h'
  exact ⟨rfl, rfl⟩

/-- A turn that calls a module runs no command of its own. -/
theorem not_returns (haction : prepared.action = .call m) (result : TaskResult) :
    ¬ T.Returns setup result := by
  rintro ⟨_, _, command, h', haction', -⟩
  obtain ⟨rfl, rfl⟩ := h.unique h'
  rw [haction] at haction'
  cases haction'

theorem returns_iff (haction : prepared.action = .run command) {result : TaskResult} :
    T.Returns setup result ↔ futureName? T.task prepared.name = none ∧
      ((command.run setup.host T.inner T.task).run w).1 = .ok result := by
  constructor
  · rintro ⟨_, _, _, h', haction', hreturns⟩
    obtain ⟨rfl, rfl⟩ := h.unique h'
    cases haction.symm.trans haction'
    exact hreturns
  · exact fun hreturns => ⟨prepared, w, command, h, haction, hreturns⟩

/-- A turn that runs a command opens no call. -/
theorem not_enters {depth : Nat} {c : OpenCall} {sub : Task} {scope : Scope} {u : RunState σ}
    (haction : prepared.action = .run command) : ¬ Enters setup depth T c sub scope u := by
  rintro ⟨h', haction', -, -⟩
  obtain ⟨rfl, rfl⟩ := h.unique h'
  rw [haction] at haction'
  cases haction'

end Prepares

/-- A turn that ends well has prepared its task. -/
theorem run_ok (h : T.run setup call = (.ok b, v)) :
    ∃ prepared w, T.Prepares setup prepared w ∧
      (acting setup call T.task T.inner prepared).run.run (T.started prepared w) = (.ok b, v) := by
  unfold run at h
  rw [runOnce_eq] at h
  change (starting setup call T.task T.inner
    ((T.task.prepare setup T.state.current.play T.inner).run T.state.world).1).run.run
    { T.state with world := ((T.task.prepare setup T.state.current.play T.inner).run
      T.state.world).2 } = _ at h
  rcases hprepared : (T.task.prepare setup T.state.current.play T.inner).run T.state.world
    with ⟨u | prepared, w⟩
  · rw [hprepared] at h
    cases h
  · rw [hprepared] at h
    exact ⟨prepared, w, hprepared, h⟩

/-- A module call that ends well has run the tasks of the module. -/
theorem calling_ok {prepared : Prepared} {w : World σ} {m : Module}
    (haction : prepared.action = .call m)
    (h : (acting setup call T.task T.inner prepared).run.run (T.started prepared w) = (.ok b, v)) :
    ∃ inner, (anyChanged (fun sub => call sub (.table w.tables.size :: T.inner)) m.tasks).run.run
        (T.opened prepared w) = (.ok b, inner) ∧
      v = inner.afterCompletion T.task (if b then TaskResult.ofChange else TaskResult.ok) := by
  simp only [acting, haction, callModule_eq] at h
  rcases hinner : (anyChanged (fun sub => call sub (.table w.tables.size :: T.inner))
    m.tasks).run.run (T.opened prepared w) with ⟨o, inner⟩
  change (outcome (anyChanged (fun sub => call sub (.table w.tables.size :: T.inner)) m.tasks) >>=
    closing T.task prepared.name).run.run (T.opened prepared w) = _ at h
  rw [run_closing T.task prepared.name hinner] at h
  rcases o with (cause | _) | changed <;> cases h
  exact ⟨inner, rfl, rfl⟩

/-- A command of a turn that ends well was dispatched, or has returned a result. -/
theorem performing_ok {prepared : Prepared} {w : World σ} {command : Command}
    (haction : prepared.action = .run command)
    (h : (acting setup call T.task T.inner prepared).run.run (T.started prepared w) = (.ok b, v)) :
    (futureName? T.task prepared.name).isSome ∧ b = false ∨
      futureName? T.task prepared.name = none ∧ ∃ result,
        ((command.run setup.host T.inner T.task).run w).1 = .ok result ∧ b = result.changed := by
  simp only [acting, haction, performing] at h
  cases hfuture : futureName? T.task prepared.name with
  | some future =>
    rw [hfuture] at h
    obtain ⟨-, u, -, h⟩ := run_bind_ok h
    cases h
    exact .inl ⟨rfl, rfl⟩
  | none =>
    simp only [hfuture, run_runCommand] at h
    have hworld : (T.started prepared w).world = w := rfl
    rw [hworld] at h
    refine .inr ⟨rfl, ?_⟩
    cases hdone : ((command.run setup.host T.inner T.task).run w).1 with
    | ok result =>
      rw [hdone] at h
      cases h
      exact ⟨result, rfl, rfl⟩
    | error e =>
      rw [hdone] at h
      cases h

end Turn

end Runner

end PlaybookRunner
