import Mathlib.Logic.Relation
import PlaybookRunner.Proofs.Honest
import PlaybookRunner.Proofs.PlayPairs

/-!
# Deferring a task

A play is run twice: with some task run at once, and with the task deferred under a name
that nothing reads. The runs stay together, but the deferred task has not notified yet
what it will when it is awaited, and the module calls around it do not learn that it has
changed something. Where these notify nothing else, the same handlers are due in both.
-/

namespace PlaybookRunner

variable {σ α β : Type}

/-- The task deferred under a name. -/
def Task.deferredAs (f : String) (t : Task) : Task := { t with future := some f }

/-- The same task, or the task `t` and its deferred form. -/
def Task.Defers (f : String) (t a b : Task) : Prop := b = a ∨ a = t ∧ b = t.deferredAs f

namespace Task

variable {setup : Setup σ} {p q : Play} {f : String} {t : Task}

/-- Whether a command is deferred does not matter for its preparation. -/
theorem prepare_deferredAs (h : q.module? t.command = none) (scope : Scope) :
    (t.deferredAs f).prepare setup q scope = t.prepare setup q scope := by
  have hbound : (t.deferredAs f).bindExpanded setup q = t.bindExpanded setup q := by
    funext texts
    unfold bindExpanded bindAction
    have hcommand : q.module? (t.deferredAs f).command = none := h
    rw [hcommand, h]
    rfl
  rw [prepare_eq, prepare_eq, hbound]
  rfl

/-- Calls of modules of one name are prepared alike. -/
theorem bindExpanded_call {m m' : Module} (hm : p.module? t.command = some m)
    (hm' : q.module? t.command = some m') (texts : String × String × Vars) :
    (∀ prepared, t.bindExpanded setup p texts = .ok prepared → prepared.action = .call m) ∧
      t.bindExpanded setup q texts = (t.bindExpanded setup p texts).map
        fun prepared => { prepared with action := .call m' } := by
  unfold bindExpanded bindAction
  rw [hm, hm']
  dsimp only
  by_cases hdeferred : t.isDeferred
  · rw [if_pos hdeferred, if_pos hdeferred]
    exact ⟨fun _ h => (by cases h), rfl⟩
  · rw [if_neg hdeferred, if_neg hdeferred]
    cases bindParams t.command texts.2.1 texts.2.2 with
    | error e => exact ⟨fun _ h => (by cases h), rfl⟩
    | ok params => exact ⟨fun _ h => (by cases h; rfl), rfl⟩

end Task

theorem World.Settled.run_expand {w : World σ} (h : w.Settled) (setup : Setup σ) (t : Task)
    (scope : Scope) : ((t.expand setup scope).run w).2 = w :=
  Agree.keeps (Task.related_expand fun key _ => h.agree_read scope key) rfl

/-- A preparation may be split into the expansion of the templates and what follows. -/
theorem Step.inWorld_pure {z : RunM σ α} {k : α → β} {g : β → Step σ Bool} :
    (Step.inWorld (z >>= fun a => pure (k a)) >>= g) = Step.inWorld z >>= fun a => g (k a) := rfl

/-- A play in which a task of the other play is deferred at some places. -/
structure Play.Defers (p : Play) (f : String) (t : Task) (q : Play) : Prop where
  name : q.name = p.name
  vars : q.vars = p.vars
  handlers : q.handlers = p.handlers
  tasks : List.Forall₂ (Task.Defers f t) p.tasks q.tasks
  modules : List.Forall₂ (fun m m' => m'.1 = m.1 ∧ m'.2.name = m.2.name ∧
    List.Forall₂ (Task.Defers f t) m.2.tasks m'.2.tasks) p.modules q.modules

theorem Dict.get?_rel {R : α → β → Prop} {d : Dict α} {d' : Dict β}
    (h : List.Forall₂ (fun e e' => e'.1 = e.1 ∧ R e.2 e'.2) d d') (key : String) :
    Option.Rel R (d.get? key) (d'.get? key) := by
  unfold Dict.get?
  induction h with
  | nil => exact .none
  | @cons e e' d d' he _ ih =>
    obtain ⟨k, v⟩ := e
    obtain ⟨k', v'⟩ := e'
    obtain ⟨rfl, hv⟩ := he
    rw [List.lookup_cons, List.lookup_cons]
    cases key == k' with
    | true => exact .some hv
    | false => exact ih

theorem Play.Defers.module? {f : String} {t : Task} {p q : Play} (h : p.Defers f t q)
    (command : String) :
    Option.Rel (fun m m' => m'.name = m.name ∧ List.Forall₂ (Task.Defers f t) m.tasks m'.tasks)
      (p.module? command) (q.module? command) := Dict.get?_rel h.modules command

theorem Play.Defers.module?_none {f : String} {t : Task} {p q : Play} (h : p.Defers f t q)
    {command : String} (hnone : p.module? command = none) : q.module? command = none := by
  have hmodule := h.module? command
  rw [hnone] at hmodule
  generalize q.module? command = found at hmodule ⊢
  cases hmodule
  rfl

theorem Play.Defers.exists_module {f : String} {t : Task} {p q : Play} (h : p.Defers f t q)
    {command : String} {m : Module} (hm : p.module? command = some m) :
    ∃ m', q.module? command = some m' ∧ m'.name = m.name ∧
      List.Forall₂ (Task.Defers f t) m.tasks m'.tasks := by
  have hmodule := h.module? command
  rw [hm] at hmodule
  generalize q.module? command = found at hmodule ⊢
  cases hmodule with
  | some hmm' => exact ⟨_, rfl, hmm'⟩

/-- A task of the play that calls modules which come to the task `t`. -/
def Play.Encloses (p : Play) (a t : Task) : Prop :=
  a ∈ p.declared ∧ Relation.TransGen (fun a b => b ∈ p.subtasks a) a t

theorem Play.Encloses.exists_module {p : Play} {a t : Task} (h : p.Encloses a t) :
    ∃ m, p.module? a.command = some m := by
  obtain ⟨sub, hsub, -⟩ := Relation.TransGen.head'_iff.mp h.2
  unfold Play.subtasks at hsub
  cases hm : p.module? a.command with
  | some m => exact ⟨m, rfl⟩
  | none => simp [hm] at hsub

/-- The deferred task notifies the handler when it is awaited. -/
def Deferred.WillNotify (w : World σ) (d : Deferred) (name : String) : Prop :=
  ∃ result, w.answer? d.future = some (.ok result) ∧ result.changed = true ∧ name ∈ d.task.notify

namespace PlayState

variable {w v : World σ} {st : PlayState} {name : String}

/-- The handler has been notified, or will be when the deferred tasks are awaited. -/
def Due (w : World σ) (st : PlayState) (name : String) : Prop :=
  name ∈ st.notified ∨ ∃ d ∈ st.deferred, d.WillNotify w name

/-- The futures of the deferred tasks are there. -/
def Backed (w : World σ) (st : PlayState) : Prop := ∀ d ∈ st.deferred, d.future < w.futures.size

theorem Backed.later (h : st.Backed w) (hv : w.futures.toList <+: v.futures.toList) :
    st.Backed v := fun d hd => World.lt_of_later hv (h d hd)

/-- What is due does not depend on the futures that are added. -/
theorem Backed.due_later (h : st.Backed w) (hv : w.futures.toList <+: v.futures.toList) :
    st.Due v name ↔ st.Due w name := by
  refine or_congr_right (exists_congr fun d => and_congr_right fun hd => ?_)
  unfold Deferred.WillNotify
  rw [World.answer?_of_later hv (h d hd)]

end PlayState

namespace RunState

variable {s v : RunState σ} {n : Nat} {name : String}

/-- The handler is due in the running play. -/
def Due (s : RunState σ) (name : String) : Prop := s.current.Due s.world name

def Backed (s : RunState σ) : Prop := s.current.Backed s.world

theorem Gains.backed {P : Part} {ds : List Deferred} (h : s.Gains P ds v) (hs : s.Backed)
    (hds : ∀ d ∈ ds, d.future < v.world.futures.size) : v.Backed := by
  intro d hd
  rw [h.deferred, List.mem_append] at hd
  exact hd.elim (hs.later h.futures d) (hds d)

theorem Gains.due {P : Part} {ds : List Deferred} (h : s.Gains P ds v) (hs : s.Backed)
    (name : String) :
    v.Due name ↔ s.Due name ∨ name ∈ P.notified ∨ ∃ d ∈ ds, d.WillNotify v.world name := by
  have hlater : s.current.Due v.world name ↔ s.Due name := hs.due_later h.futures
  rw [← hlater]
  unfold Due PlayState.Due
  rw [h.notified, h.deferred]
  simp only [List.mem_append, or_and_right, exists_or]
  exact or_or_or_comm

/-- Nothing that is due is forgotten. -/
theorem Move.due (h : s.Move n v) (hs : s.Backed) : v.Backed ∧ (s.Due name → v.Due name) := by
  cases h with
  | @work w hw =>
    have hprefix : s.world.futures.toList <+: w.futures.toList :=
      hw.futures ▸ List.prefix_refl _
    exact ⟨hs.later hprefix, (hs.due_later hprefix).mpr⟩
  | tell _ => exact ⟨hs, id⟩
  | report t result =>
    have hgains := gains_report t result s
    exact ⟨hgains.backed hs (by simp), fun h => (hgains.due hs name).mpr (.inl h)⟩
  | dispatch hd =>
    obtain ⟨other, outcome, hfutures, -⟩ := hd.futures
    have hprefix : s.world.futures.toList <+: v.world.futures.toList := by
      rw [hfutures, Array.toList_push]
      exact List.prefix_append _ _
    refine ⟨fun d' hd' => ?_, fun hdue => ?_⟩
    · rw [hd.current, List.mem_append, List.mem_singleton] at hd'
      rcases hd' with hd' | rfl
      · exact hs.later hprefix d' hd'
      · rw [hd.future, hfutures, Array.size_push]
        exact Nat.lt_succ_self _
    · have hkept : s.current.Due v.world name := (hs.due_later hprefix).mpr hdue
      unfold Due
      rw [hd.current]
      exact hkept.imp id fun ⟨d', hd', hrest⟩ => ⟨d', List.mem_append_left _ hd', hrest⟩

theorem Moves.due (h : s.Moves n v) (hs : s.Backed) : v.Backed ∧ (s.Due name → v.Due name) := by
  induction h with
  | refl => exact ⟨hs, id⟩
  | tail _ hstep ih =>
    obtain ⟨hbacked, hkept⟩ := hstep.due ih.1
    exact ⟨hbacked, hkept ∘ ih.2⟩

end RunState

theorem Part.notified_close (t : Task) (changed : Bool) :
    (Part.close t (.ok changed)).notified = if changed then t.notify else [] := by
  cases changed <;> rfl

theorem Runner.closing_ok {x : Step σ Bool} {s v : RunState σ} {t : Task} {name : String} {b : Bool}
    (hrun : (Step.outcome x >>= Runner.closing t name).run.run s = (.ok b, v)) :
    ∃ w, x.run.run s = (.ok b, w) ∧ v = (Runner.closed t name (.ok b) w).2 := by
  rcases hx : x.run.run s with ⟨(cause | _) | changed, w⟩ <;>
    rw [Runner.run_closing t name hx] at hrun <;> cases hrun
  exact ⟨w, rfl, rfl⟩

theorem exists_mem_congr {P : α → Prop} {Q : β → Prop} {as : List α} {bs : List β}
    (h : List.Forall₂ (fun a b => P a ↔ Q b) as bs) : (∃ a ∈ as, P a) ↔ ∃ b ∈ bs, Q b := by
  induction h with
  | nil => simp
  | cons hab _ ih => simp only [List.mem_cons, exists_eq_or_imp, hab, ih]

namespace Comparison

open Step RunState

variable {c : Comparison σ} {p q : Play} {t : Task} {π ρ : Pairing} {s s' v v' : RunState σ}

/-- The runs are together, and the same handlers are due in both. -/
structure Level (c : Comparison σ) (p q : Play) (π : Pairing) (s s' : RunState σ) : Prop
    extends Together c p q π s s' where
  backed : s.Backed
  backed' : s'.Backed
  due : ∀ name, s.Due name ↔ s'.Due name

/-- Of what the part says about a change the deferred task may be missing, if the handlers
that it notifies are due. -/
def Owes (t : Task) (changed changed' : Bool) (v' : RunState σ) : Prop :=
  changed' = changed ∨ changed' = false ∧ ∀ name ∈ t.notify, v'.Due name

/-- Where no table counts as earlier, a scope may be written to from any other. -/
theorem own_owner (scope : Scope) (table i : Nat) (_ : scope.owner? = some i) : Own 0 table i :=
  .inr (Nat.zero_le i)

/-- Two parts that both end well leave the runs level. -/
structure Loose (c : Comparison σ) (p q : Play) (t : Task) (π : Pairing) (x y : Step σ Bool) :
    Prop where
  goes : ∀ table, Goes 0 table x
  goes' : ∀ table, Goes 0 table y
  meets : ∀ {ρ s s' b v b' v'}, π ≤ ρ → c.Level p q ρ s s' → x.run.run s = (.ok b, v) →
    y.run.run s' = (.ok b', v') → c.Fair v.events.toList →
    ∃ τ, ρ ≤ τ ∧ c.Level p q τ v v' ∧ Owes t b b' v'

theorem Level.of_alike (h : c.Level p q π s s') (htogether : c.Together p q ρ v v')
    (halike : Alike ρ s v s' v') : c.Level p q ρ v v' := by
  obtain ⟨P, ds, ds', hgains, hgains', hds⟩ := halike
  have hlt : ∀ d ∈ ds, d.future < v.world.futures.size :=
    forall_mem_right (hds.imp fun d d' hd => (htogether.world.futures_lt hd.future).1).flip
  have hlt' : ∀ d ∈ ds', d.future < v'.world.futures.size :=
    forall_mem_right (hds.imp fun d d' hd => (htogether.world.futures_lt hd.future).2)
  refine ⟨htogether, hgains.backed h.backed hlt, hgains'.backed h.backed' hlt', fun name => ?_⟩
  rw [hgains.due h.backed, hgains'.due h.backed', h.due]
  refine or_congr_right (or_congr_right (exists_mem_congr (hds.imp fun d d' hd => ?_)))
  unfold Deferred.WillNotify
  rw [htogether.world.answers hd.future, hd.task]

theorem Level.ready (h : c.Level p q π s s') :
    s.Ready 0 s.current.table ∧ s'.Ready 0 s'.current.table :=
  ⟨h.toTogether.ready, h.world.settled', Nat.zero_le _, rfl⟩

theorem moves_of_ok {x : Step σ α} (hx : ∀ table, Goes 0 table x)
    (hs : s.Ready 0 s.current.table) {a : α} (hrun : x.run.run s = (.ok a, v)) : s.Moves 0 v := by
  have hended : s.Ended 0 (.ok a) v := (hx _ s hs).of_run hrun
  cases hended with
  | done _ hmoves => exact hmoves

theorem Owes.or {b b' d d' : Bool} (h : Owes t b b' v) (hlater : ∀ name, v.Due name → v'.Due name)
    (h' : Owes t d d' v') : Owes t (b || d) (b' || d') v' := by
  rcases h with rfl | ⟨rfl, hdue⟩
  · rcases h' with rfl | ⟨rfl, hdue'⟩
    · exact .inl rfl
    · cases b' with
      | true => exact .inl rfl
      | false => exact .inr ⟨rfl, hdue'⟩
  · cases d' with
    | false => exact .inr ⟨rfl, fun name hname => hlater name (hdue name hname)⟩
    | true =>
      rcases h' with rfl | ⟨hfalse, -⟩
      · exact .inl (Bool.or_true b).symm
      · cases hfalse

namespace Loose

variable {x y : Step σ Bool}

/-- What keeps step leaves the runs level. -/
theorem of_lockstep (h : c.Lockstep p q π x y) (hgoes' : ∀ table, Goes 0 table y) :
    c.Loose p q t π x y := by
  refine ⟨h.goes, hgoes', fun {ρ s s' b v b' v'} hle hlevel hrun hrun' hfair => ?_⟩
  have hx : (x.run.run s).2.events.toList = v.events.toList := by rw [hrun]
  obtain ⟨ho, τ, hτ, htogether, halike⟩ := h.meets hle hlevel.toTogether (hx ▸ hfair)
  rw [hrun, hrun'] at ho htogether halike
  cases ho
  exact ⟨τ, hτ, hlevel.of_alike htogether halike, .inl rfl⟩

/-- A part that never ends well. -/
theorem stop (hgoes : ∀ table, Goes 0 table x) (hgoes' : ∀ table, Goes 0 table y)
    (h : ∀ s b v, x.run.run s ≠ (.ok b, v)) : c.Loose p q t π x y :=
  ⟨hgoes, hgoes', fun _ _ hrun => absurd hrun (h _ _ _)⟩

theorem fail (a b : Task) (name args : String) (cause : Error) :
    c.Loose p q t π (reportFailure a name args cause >>= fun _ => failTask name cause)
      (reportFailure b name args cause >>= fun _ => failTask name cause) :=
  .stop (fun _ => Runner.goes_fail a name args cause) (fun _ => Runner.goes_fail b name args cause)
    fun _ _ _ hrun => by cases hrun

theorem anyChanged {ι κ : Type} {run : ι → Step σ Bool} {run' : κ → Step σ Bool} {as : List ι}
    {bs : List κ} (h : List.Forall₂ (fun a b => c.Loose p q t π (run a) (run' b)) as bs) :
    c.Loose p q t π (Runner.anyChanged run as) (Runner.anyChanged run' bs) := by
  induction h with
  | nil =>
    have hnone : c.Lockstep p q π (Pure.pure false) (Pure.pure false) := .pure false
    exact .of_lockstep hnone fun table => .pure false
  | @cons a b as bs hab _ ih =>
    refine ⟨fun table => (hab.goes table).bind fun _ => (ih.goes table).bind fun _ => .pure _,
      fun table => (hab.goes' table).bind fun _ => (ih.goes' table).bind fun _ => .pure _, ?_⟩
    intro ρ s s' d v d' v' hle hlevel hrun hrun' hfair
    obtain ⟨b₁, u, hfirst, hrest⟩ := run_bind_ok hrun
    obtain ⟨b₂, w, hrest, hend⟩ := run_bind_ok hrest
    cases hend
    obtain ⟨b₁', u', hfirst', hrest'⟩ := run_bind_ok hrun'
    obtain ⟨b₂', w', hrest', hend'⟩ := run_bind_ok hrest'
    cases hend'
    have hu : s.Moves 0 u := moves_of_ok hab.goes hlevel.ready.1 hfirst
    have hready : u.Ready 0 u.current.table :=
      ⟨(hu.ready hlevel.ready.1).settled, Nat.zero_le _, rfl⟩
    have hlater : u.events.toList <+: v.events.toList :=
      (moves_of_ok ih.goes hready hrest).events
    obtain ⟨τ, hτ, hmiddle, howes⟩ := hab.meets hle hlevel hfirst hfirst' (hfair.before hlater)
    obtain ⟨υ, hυ, hlast, howes'⟩ :=
      ih.meets (Pairing.le_trans hle hτ) hmiddle hrest hrest' hfair
    have hmoves : u'.Moves 0 v' := moves_of_ok ih.goes' hmiddle.ready.2 hrest'
    exact ⟨υ, Pairing.le_trans hτ hυ, hlast,
      howes.or (fun _ => (hmoves.due hmiddle.backed').2) howes'⟩

theorem getThen {g h : RunState σ → Step σ Bool} (hgoes : ∀ table, Goes 0 table (get >>= g))
    (hgoes' : ∀ table, Goes 0 table (get >>= h))
    (hgh : ∀ {ρ s s'}, π ≤ ρ → c.Together p q ρ s s' → c.Loose p q t ρ (g s) (h s')) :
    c.Loose p q t π (get >>= g) (get >>= h) :=
  ⟨hgoes, hgoes', fun hle hlevel hrun hrun' hfair =>
    (hgh hle hlevel.toTogether).meets (Pairing.le_refl _) hlevel hrun hrun' hfair⟩

theorem newTableThen (vars : Vars) {g h : Nat → Step σ Bool}
    (hgh : ∀ {ρ i j}, π ≤ ρ → ρ.tables i j → c.Loose p q t ρ (g i) (h j)) :
    c.Loose p q t π (newTable vars >>= g) (newTable vars >>= h) := by
  have hboth (i : Nat) : c.Loose p q t (π.addTables i i) (g i) (h i) :=
    hgh (π.le_addTables i i) (.inr ⟨rfl, rfl⟩)
  refine ⟨fun table => .newTableThen fun i _ => (hboth i).goes table,
    fun table => .newTableThen fun i _ => (hboth i).goes' table, ?_⟩
  intro ρ s s' b v b' v' hle hlevel hrun hrun' hfair
  let ρ' := ρ.addTables s.world.tables.size s'.world.tables.size
  have hle' : ρ ≤ ρ' := ρ.le_addTables _ _
  let u : RunState σ := { s with world := (s.world.newTable vars).2 }
  let u' : RunState σ := { s' with world := (s'.world.newTable vars).2 }
  have hu : c.Level p q ρ' u u' :=
    ⟨⟨hlevel.world.newTables vars, hle'.1 hlevel.table, hlevel.left, hlevel.right⟩,
      hlevel.backed, hlevel.backed', hlevel.due⟩
  have hrest : c.Loose p q t ρ' (g s.world.tables.size) (h s'.world.tables.size) :=
    hgh (Pairing.le_trans hle hle') (.inr ⟨rfl, rfl⟩)
  obtain ⟨τ, hτ, hend⟩ := hrest.meets (Pairing.le_refl ρ') hu hrun hrun' hfair
  exact ⟨τ, Pairing.le_trans hle' hτ, hend⟩

/-- A reading may be used together with what is known of its answer. -/
theorem readThen {z z' : RunM σ α} {Q : α → Prop} {g h : α → Step σ Bool}
    (hgoes : ∀ a table, Goes 0 table (g a)) (hgoes' : ∀ a table, Goes 0 table (h a))
    (hz : ∀ w : World σ, w.Settled → (z.run w).2 = w)
    (hz' : ∀ w : World σ, w.Settled → (z'.run w).2 = w)
    (hread : ∀ {ρ}, π ≤ ρ → Related (c.Mirrors ρ) z z') (hanswer : Answers z Q)
    (hgh : ∀ a, Q a → c.Loose p q t π (g a) (h a)) :
    c.Loose p q t π (inWorld z >>= g) (inWorld z' >>= h) := by
  refine ⟨fun table => (Goes.read hz).bind fun a => hgoes a table,
    fun table => (Goes.read hz').bind fun a => hgoes' a table,
    fun {ρ s s' b v b' v'} hle hlevel hrun hrun' hfair => ?_⟩
  obtain ⟨ho, -⟩ := hread hle _ _ hlevel.world
  have hfirst : (inWorld z).run.run s = (.ok (z.run s.world).1, s) := by
    rw [run_inWorld, hz _ hlevel.world.settled]
  have hfirst' : (inWorld z').run.run s' = (.ok (z.run s.world).1, s') := by
    rw [run_inWorld, hz' _ hlevel.world.settled', ho]
  rw [run_bind_of_ok hfirst] at hrun
  rw [run_bind_of_ok hfirst'] at hrun'
  exact (hgh _ (hanswer s.world)).meets hle hlevel hrun hrun' hfair

theorem read {z z' : RunM σ α} {g h : α → Step σ Bool}
    (hz : ∀ w : World σ, w.Settled → (z.run w).2 = w)
    (hz' : ∀ w : World σ, w.Settled → (z'.run w).2 = w)
    (hread : ∀ {ρ}, π ≤ ρ → Related (c.Mirrors ρ) z z')
    (hgh : ∀ a, c.Loose p q t π (g a) (h a)) :
    c.Loose p q t π (inWorld z >>= g) (inWorld z' >>= h) :=
  .readThen (Q := fun _ => True) (fun a => (hgh a).goes) (fun a => (hgh a).goes') hz hz' hread
    (fun _ => trivial) fun a _ => hgh a

/-- What a started task does may depend on what its command reads. The starts may differ in
the task that they report. -/
theorem startThen {a b : Task} {name args : String} {params : Vars}
    (hgoes : ∀ table, Goes 0 table x) (hgoes' : ∀ table, Goes 0 table y)
    (h : (∀ command, c.setup.registry.bind a.command params = .ok command →
      ∀ key ∈ command.mentions, ¬ c.hidden key) → c.Loose p q t π x y) :
    c.Loose p q t π (emit (.startTask a name args params) >>= fun _ => x)
      (emit (.startTask b name args params) >>= fun _ => y) := by
  have hstart (d : Task) (table : Nat) :
      Goes 0 table (emit (.startTask d name args params) : Step σ Unit) := .emit (by simp)
  refine ⟨fun table => (hstart a table).bind fun _ => hgoes table,
    fun table => (hstart b table).bind fun _ => hgoes' table, ?_⟩
  intro ρ s s' d v d' v' hle hlevel hrun hrun' hfair
  let u := s.push (.startTask a name args params)
  let u' := s'.push (.startTask b name args params)
  have hu : c.Level p q ρ u u' :=
    ⟨⟨hlevel.world, hlevel.table, hlevel.left, hlevel.right⟩, hlevel.backed, hlevel.backed',
      hlevel.due⟩
  have hrest : x.run.run u = (.ok d, v) := hrun
  have hstarted : .startTask a name args params ∈ v.events.toList := by
    apply (moves_of_ok hgoes hu.ready.1 hrest).events.subset
    change _ ∈ (s.events.push _).toList
    simp
  have hboth : c.Loose p q t π x y := h fun command hbind =>
    hfair a name args params command hstarted hbind
  exact hboth.meets hle hu hrest hrun' hfair

/-- A call around the deferred task notifies only what the task notifies, and what it
registers is hidden. -/
theorem closing (h : c.Loose p q t π x y) {a : Task} (hnotify : a.notify ⊆ t.notify)
    (hregister : ∀ name, a.register = some name → c.hidden name) (name : String) :
    c.Loose p q t π (outcome x >>= Runner.closing a name)
      (outcome y >>= Runner.closing a name) := by
  refine ⟨fun table => Runner.goes_closing (h.goes table) a name,
    fun table => Runner.goes_closing (h.goes' table) a name, ?_⟩
  intro ρ s s' b v b' v' hle hlevel hrun hrun' hfair
  obtain ⟨w, hx, rfl⟩ := Runner.closing_ok hrun
  obtain ⟨w', hy, rfl⟩ := Runner.closing_ok hrun'
  have hgains := w.gains_closed a name (.ok b)
  have hgains' := w'.gains_closed a name (.ok b')
  have hlater : w.events.toList <+: (Runner.closed a name (.ok b) w).2.events.toList := by
    rw [hgains.events]
    exact List.prefix_append _ _
  obtain ⟨τ, hτ, hlevel', howes⟩ := h.meets hle hlevel hx hy (hfair.before hlater)
  have hdue := hgains.due hlevel'.backed
  have hdue' := hgains'.due hlevel'.backed'
  simp only [Part.notified_close, List.not_mem_nil, false_and, exists_false, or_false]
    at hdue hdue'
  refine ⟨τ, hτ, ⟨?_, hgains.backed hlevel'.backed (by simp),
    hgains'.backed hlevel'.backed' (by simp), fun name => ?_⟩, ?_⟩
  · exact hlevel'.toTogether.afterCompletions a fun name hname hshown =>
      absurd (hregister name hname) hshown
  · rw [hdue, hdue', hlevel'.due]
    rcases howes with rfl | ⟨rfl, howed⟩
    · exact Iff.rfl
    · cases b with
      | false => exact Iff.rfl
      | true =>
        -- The call notifies in the first run alone, but these handlers are due already.
        simp only [if_true, Bool.false_eq_true, if_false, List.not_mem_nil, or_false]
        exact or_iff_left_of_imp fun hname => howed name (hnotify hname)
  · exact howes.imp id fun ⟨hfalse, howed⟩ =>
      ⟨hfalse, fun name hname => (hdue' name).mpr (.inl (howed name hname))⟩

end Loose

/-- What is asked of a task that is deferred in a play: it is a command that registers
nothing and that no handler comes to, and a call around it notifies nothing else and
registers nothing that is read. -/
structure Deferrable (c : Comparison σ) (p : Play) (f : String) (t : Task) : Prop where
  hidden : c.hidden f
  unread : ∀ a ∈ p.declared, ∀ key ∈ a.mentions, ¬ c.hidden key
  honest : c.setup.host.Honest
  steady : ∀ params command, c.setup.registry.bind t.command params = .ok command →
    command.Steady c.setup.host c.hosts t (t.deferredAs f)
  command : t ∈ p.declared → p.module? t.command = none
  sync : t.isDeferred = false
  register : t.register = none
  calls : ∀ a, p.Encloses a t → a.notify ⊆ t.notify ∧
    ∀ name, a.register = some name → c.hidden name
  outside : ∀ a ∈ p.handlers, ¬ p.Encloses a t

/-- A future that only the second run adds is hidden by its name. -/
theorem Together.deferringAlone (h : c.Together p q π s s') {f : String} (hf : c.hidden f)
    (job : Job) : c.Mirrors π s.world (s'.deferring f job) := by
  -- The new future corresponds to none of the first run, and only its name is bound to it.
  let running : Future := { name := f, progress := .running }
  let w' : World σ := { s'.world with futures := s'.world.futures.push running }
  have hkept' : s'.world.futures.toList <+: w'.futures.toList := by simp [w']
  have hfutures : c.Mirrors π s.world w' := by
    refine h.world.withFutures rfl rfl rfl rfl h.world.settled
      (h.world.settled'.push (by simp [running]) rfl) fun hij => ?_
    obtain ⟨hi, hj⟩ := h.world.futures_lt hij
    refine ⟨⟨hi, World.lt_of_later hkept' hj⟩, ?_⟩
    rw [World.answer?_of_later hkept' hj, h.world.answers hij]
  have hbound : c.Mirrors π (s.world.modifyTable s.current.table id)
      (w'.modifyTable s'.current.table fun t =>
        { t with futures := t.futures.put f s'.world.futures.size }) := by
    refine hfutures.modifyTables h.table (hfutures.vars h.table) fun key hkey => ?_
    have hname : key ≠ f := fun hname => hkey (hname ▸ hf)
    dsimp only [id]
    rw [Dict.get?_put_of_ne _ _ hname]
    exact hfutures.binds h.table key hkey
  have htables : (s.world.modifyTable s.current.table id).tables = s.world.tables := by
    apply Array.ext_getElem?
    intro i
    rw [World.getElem?_modifyTable, Option.map_id]
    exact ite_self _
  exact hbound.of_eq htables.symm rfl rfl (s'.tables_deferring f job) (s'.futures_deferring f job)
    rfl

/-- The task has been reported in the first run and dispatched in the second, which owes its
notifications until it awaits the task. -/
theorem Level.deferred (h : c.Level p q π s s') {f : String} (hregister : t.register = none)
    (name : String) {job : Job} {result : TaskResult} (hresult : result.failed = false)
    {w w' : World σ} (hworld : c.Mirrors π w w')
    (hquiet : s.world.Writes (fun _ => True) w)
    (hquiet' : (s'.deferring f job).Writes (fun _ => True) w') :
    let v := ({ s with world := w } : RunState σ).afterCompletion t result
    let v' := s'.afterDispatch (t.deferredAs f) name (.ok result, w')
    c.Level p q π v v' ∧ Owes t result.changed false v' := by
  intro v v'
  let done : Except CommandError TaskResult × World σ := (.ok result, w')
  have hreport : v = ({ s with world := w } : RunState σ).report t result := by
    unfold v afterCompletion
    rw [hregister]
  have hgains : s.Gains (.report t result) [] v :=
    (gains_world (s := s) hquiet.recorded hquiet.futures).trans (gains_afterCompletion t result _)
  have hdone : done.2.futures = (s'.deferring f job).futures := hquiet'.futures
  have hgains' : s'.Gains (.dispatch (t.deferredAs f) (Command.resultOf done.1))
      [⟨t.deferredAs f, name, s'.world.futures.size⟩] v' :=
    gains_afterDispatch (t.deferredAs f) name f job hdone hquiet'.recorded
  obtain ⟨hsize, hanswer⟩ : v'.world.futures.size = s'.world.futures.size + 1 ∧
      v'.world.answer? s'.world.futures.size =
        some ((done.1.mapError CommandError.message).mapError (.futureFailed f)) :=
    answer?_afterDispatch (t.deferredAs f) name f job hdone
  replace hanswer : v'.world.answer? s'.world.futures.size = some (.ok result) := hanswer
  have hmirrors : c.Mirrors π v.world v'.world := by
    refine hworld.withFutures (by rw [hreport]; rfl) (by rw [hreport]; rfl) rfl rfl
      (h.world.settled.of_futures (by rw [hreport]; exact hquiet.futures))
      (settled_afterDispatch _ name f job h.world.settled' hquiet'.futures) fun hij => ?_
    obtain ⟨hi, hj⟩ := h.world.futures_lt hij
    refine ⟨⟨World.lt_of_later hgains.futures hi, World.lt_of_later hgains'.futures hj⟩, ?_⟩
    rw [World.answer?_of_later hgains.futures hi, World.answer?_of_later hgains'.futures hj,
      h.world.answers hij]
  have hdue (other : String) :
      v'.Due other ↔ s'.Due other ∨ result.changed = true ∧ other ∈ t.notify := by
    rw [hgains'.due h.backed']
    simp [Part.dispatch, Deferred.WillNotify, hanswer, Task.deferredAs]
  obtain ⟨hplay, htable⟩ : v.current.play = s.current.play ∧ v.current.table = s.current.table :=
    current_afterCompletion t result { s with world := w }
  have htogether : c.Together p q π v v' :=
    ⟨hmirrors, htable ▸ h.table, hplay.trans h.left, h.right⟩
  refine ⟨⟨htogether, hgains.backed h.backed (by simp), hgains'.backed h.backed' (by simp [hsize]),
    fun other => ?_⟩, ?_⟩
  · rw [hdue, hgains.due h.backed, h.due]
    simp [Part.report, hresult]
  · cases hchanged : result.changed with
    | false => exact .inl rfl
    | true => exact .inr ⟨rfl, fun other hother => (hdue other).mpr (.inr ⟨hchanged, hother⟩)⟩

theorem loose_deferred {f : String} (hf : c.Deferrable p f t) (name : String) {scope scope' : Scope}
    (hscope : Scope.Mirrors π scope scope') {command : Command}
    (hsteady : command.Steady c.setup.host c.hosts t (t.deferredAs f))
    (hmentions : ∀ key ∈ command.mentions, ¬ c.hidden key) :
    c.Loose p q t π (Runner.runCommand c.setup t name command scope)
      (Runner.dispatch c.setup (t.deferredAs f) name f command scope' >>= fun _ => pure false) := by
  refine ⟨fun table => Runner.goes_runCommand t name command (own_owner scope table), fun table =>
    (Runner.goes_dispatch _ name f command (own_owner scope' table)).bind fun _ => .pure _, ?_⟩
  intro ρ s s' b v b' v' hle hlevel hrun hrun' _
  rw [Runner.run_runCommand] at hrun
  rw [run_bind_of_ok (Runner.run_dispatch _ name f command scope' s')] at hrun'
  cases hrun'
  let job : Job := .command command scope' (t.deferredAs f)
  obtain ⟨houtcome, hworld⟩ := Command.related_run (hscope.mono hle) hsteady hmentions _ _
    (hlevel.deferringAlone hf.hidden job)
  have hquiet : s.world.Writes (fun _ => True)
      ((command.run c.setup.host scope t).run s.world).2 :=
    hlevel.world.settled.writes_command (fun _ _ => trivial) t command
  have hsettled' : (s'.deferring f job).Settled := settled_deferring hlevel.world.settled' f job
  have hquiet' : (s'.deferring f job).Writes (fun _ => True)
      ((command.run c.setup.host scope' (t.deferredAs f)).run (s'.deferring f job)).2 :=
    hsettled'.writes_command (fun _ _ => trivial) _ command
  have hhonest : Unfailed ((command.run c.setup.host scope t).run s.world).1 :=
    Command.answers_runWith hf.honest (Future.force c.setup.host) scope t command s.world
  rcases hdone : (command.run c.setup.host scope t).run s.world with ⟨_ | result, w⟩ <;>
    rw [hdone] at hrun <;> cases hrun
  rcases hdone' : (command.run c.setup.host scope' (t.deferredAs f)).run (s'.deferring f job)
    with ⟨o', w'⟩
  rw [hdone, hdone'] at houtcome hworld
  rw [hdone] at hquiet hhonest
  rw [hdone'] at hquiet'
  cases houtcome
  obtain ⟨hnext, howes⟩ :=
    hlevel.deferred hf.register name (hhonest result rfl) hworld hquiet hquiet'
  exact ⟨ρ, Pairing.le_refl ρ, hnext, howes⟩

/-- The deferred task, or a call around it. -/
inductive Loosened (p : Play) (f : String) (t : Task) : Task → Task → Prop
  | deferred : Loosened p f t t (t.deferredAs f)
  | around {a : Task} (h : p.Encloses a t) : Loosened p f t a a

/-- Calls of tasks that are the same but for the deferral leave the runs level. -/
structure CallLoose (c : Comparison σ) (p q : Play) (f : String) (t : Task)
    (call : Task → Scope → Step σ Bool) : Prop where
  goes : ∀ table, Runner.CallGoes 0 table call
  loose : ∀ {π a b scope scope'}, Task.Defers f t a b → a ∈ p.declared →
    Scope.Mirrors π scope scope' → c.Loose p q t π (call a scope) (call b scope')

section

variable {f : String} {call : Task → Scope → Step σ Bool} {a b : Task} {scope scope' : Scope}

theorem loose_acting_deferred (hf : c.Deferrable p f t) (ht : t ∈ p.declared) {prepared : Prepared}
    (hbound : t.Bound c.setup.registry p prepared) (hscope : Scope.Mirrors π scope scope')
    (hmentions : ∀ command, c.setup.registry.bind t.command prepared.params = .ok command →
      ∀ key ∈ command.mentions, ¬ c.hidden key) :
    c.Loose p q t π (Runner.acting c.setup call t scope prepared)
      (Runner.acting c.setup call (t.deferredAs f) scope' prepared) := by
  unfold Runner.acting Runner.performing
  cases haction : prepared.action with
  | call m =>
    have hm := hbound.call m haction
    rw [hf.command ht] at hm
    cases hm
  | run command =>
    have hbind := (hbound.run command haction).2
    have hsync : Runner.futureName? t prepared.name = none := by
      have hboth := hf.sync
      unfold Task.isDeferred at hboth
      simp only [Bool.or_eq_false_iff, Option.isSome_eq_false_iff, Option.isNone_iff_eq_none]
        at hboth
      simp [Runner.futureName?, hboth]
    have hlater : Runner.futureName? (t.deferredAs f) prepared.name = some f := rfl
    dsimp only
    rw [hsync, hlater]
    exact loose_deferred hf prepared.name hscope (hf.steady _ command hbind)
      (hmentions command hbind)

theorem loose_callModule (hf : c.Deferrable p f t) (hcall : c.CallLoose p q f t call)
    (ha : p.Encloses a t) (prepared : Prepared) {m m' : Module}
    (hm : p.module? a.command = some m) (hmm' : List.Forall₂ (Task.Defers f t) m.tasks m'.tasks)
    {prepared' : Prepared} (hparams : prepared'.params = prepared.params)
    (hname : prepared'.name = prepared.name) (hscope : Scope.Mirrors π scope scope') :
    c.Loose p q t π (Runner.callModule call a prepared m scope)
      (Runner.callModule call a prepared' m' scope') := by
  obtain ⟨hnotify, hregister⟩ := hf.calls a ha
  rw [Runner.callModule_eq, Runner.callModule_eq, hparams, hname]
  apply Loose.newTableThen
  intro ρ i j hle hij
  refine .closing (.anyChanged ?_) hnotify hregister prepared.name
  have hsub : ∀ sub ∈ m.tasks, sub ∈ p.declared := fun sub hsub =>
    Play.subtasks_subset_declared (t := a) (by simpa [Play.subtasks, hm] using hsub)
  have hboth : List.Forall₂ (fun a b => a ∈ p.declared ∧ Task.Defers f t a b) m.tasks m'.tasks :=
    (List.forall₂_and_left _ _).mpr ⟨hsub, hmm'⟩
  exact hboth.imp fun _ _ hab => hcall.loose hab.2 hab.1 ((hscope.mono hle).table hij)

theorem loose_starting_deferred (hf : c.Deferrable p f t) (ht : t ∈ p.declared)
    (hcall : c.CallLoose p q f t call) {r : Except Unprepared Prepared}
    (hbound : ∀ prepared, r = .ok prepared → t.Bound c.setup.registry p prepared)
    (hscope : Scope.Mirrors π scope scope') :
    c.Loose p q t π (Runner.starting c.setup call t scope r)
      (Runner.starting c.setup call (t.deferredAs f) scope' r) := by
  cases r with
  | error u => exact .fail t (t.deferredAs f) u.name u.args u.cause
  | ok prepared =>
    refine .startThen (fun table => ?_) (fun table => ?_)
      (loose_acting_deferred hf ht (hbound prepared rfl) hscope)
    · exact Runner.goes_acting (hcall.goes table) t (own_owner scope table) prepared
    · exact Runner.goes_acting (hcall.goes table) _ (own_owner scope' table) prepared

theorem loose_starting_around (hf : c.Deferrable p f t) (hcall : c.CallLoose p q f t call)
    (ha : p.Encloses a t) {m m' : Module} (hm : p.module? a.command = some m)
    (hmm' : List.Forall₂ (Task.Defers f t) m.tasks m'.tasks) {r : Except Unprepared Prepared}
    (haction : ∀ prepared, r = .ok prepared → prepared.action = .call m)
    (hscope : Scope.Mirrors π scope scope') :
    c.Loose p q t π (Runner.starting c.setup call a scope r)
      (Runner.starting c.setup call a scope'
        (r.map fun prepared => { prepared with action := .call m' })) := by
  cases r with
  | error u => exact .fail a a u.name u.args u.cause
  | ok prepared =>
    refine .startThen (fun table => ?_) (fun table => ?_) fun _ => ?_
    · exact Runner.goes_acting (hcall.goes table) a (own_owner scope table) prepared
    · exact Runner.goes_acting (hcall.goes table) a (own_owner scope' table) _
    · unfold Runner.acting
      rw [haction prepared rfl]
      exact loose_callModule hf hcall ha prepared hm hmm' rfl rfl hscope

/-- The plays are those that the deferral of the task leaves. -/
structure Deferral (c : Comparison σ) (p q : Play) (f : String) (t : Task) : Prop
    extends Deferrable c p f t, Play.Defers p f t q

theorem loose_runOnce (h : c.Deferral p q f t) (hcall : c.CallLoose p q f t call)
    (ha : a ∈ p.declared) (hab : Loosened p f t a b) {outer outer' : Scope}
    (hscope : Scope.Mirrors π outer outer') :
    c.Loose p q t π (Runner.runOnce c.setup call a outer)
      (Runner.runOnce c.setup call b outer') := by
  have hgoes (a : Task) (scope : Scope) (r : Except Unprepared Prepared) (table : Nat) :
      Goes 0 table (Runner.starting c.setup call a scope r) :=
    Runner.goes_starting (hcall.goes table) a (own_owner scope table) r
  have hgoesOnce (a : Task) (outer : Scope) (table : Nat) :
      Goes 0 table (Runner.runOnce c.setup call a outer) :=
    Runner.goes_runOnce (hcall.goes table) a outer (own_owner outer table)
  simp only [Runner.runOnce_eq] at hgoesOnce ⊢
  refine .getThen (hgoesOnce a outer) (hgoesOnce b outer') fun {ρ s s'} hle htogether => ?_
  rw [htogether.left, htogether.right]
  have hscope' {τ : Pairing} (hτ : ρ ≤ τ) : Scope.Mirrors τ (a.scope outer) (a.scope outer') :=
    (hscope.mono (Pairing.le_trans hle hτ)).task a
  have hread {τ : Pairing} (hτ : ρ ≤ τ) : ∀ key ∈ a.mentions, Related (c.Mirrors τ)
      ((a.scope outer).read c.setup.host key) ((a.scope outer').read c.setup.host key) :=
    fun key hkey => (hscope' hτ).related_read (h.unread a ha key hkey)
  cases hab with
  | deferred =>
    have hcommand : q.module? t.command = none := h.module?_none (h.command ha)
    rw [Task.prepare_deferredAs hcommand]
    refine .readThen (hgoes t _) (hgoes (t.deferredAs f) _)
      (fun w hw => hw.run_prepare c.setup p t (t.scope outer))
      (fun w hw => hw.run_prepare c.setup q t (t.scope outer')) (fun hτ => ?_)
      (Task.bound_of_prepare c.setup p t (t.scope outer)) fun r hbound => ?_
    · exact Task.related_prepare (hcommand.trans (h.command ha).symm) (hread hτ)
    · exact loose_starting_deferred h.toDeferrable ha hcall hbound (hscope' (Pairing.le_refl ρ))
  | around ha =>
    obtain ⟨m, hm⟩ := ha.exists_module
    obtain ⟨m', hm', -, hmm'⟩ := h.exists_module hm
    rw [Task.prepare_eq, Task.prepare_eq, Step.inWorld_pure, Step.inWorld_pure]
    refine .read (fun w hw => hw.run_expand c.setup a (a.scope outer))
      (fun w hw => hw.run_expand c.setup a (a.scope outer'))
      (fun hτ => Task.related_expand (hread hτ)) fun texts => ?_
    cases texts with
    | error u => exact .fail a a u.name u.args u.cause
    | ok texts =>
      obtain ⟨haction, hsame⟩ := Task.bindExpanded_call hm hm' texts
      change c.Loose p q t ρ (Runner.starting c.setup call a (a.scope outer)
        (a.bindExpanded c.setup p texts)) (Runner.starting c.setup call a (a.scope outer')
        (a.bindExpanded c.setup q texts))
      rw [hsame]
      exact loose_starting_around h.toDeferrable hcall ha hm hmm' haction
        (hscope' (Pairing.le_refl ρ))

theorem loose_runItem (h : c.Deferral p q f t) (hcall : c.CallLoose p q f t call)
    (ha : a ∈ p.declared) (hab : Loosened p f t a b) {outer outer' : Scope}
    (hscope : Scope.Mirrors π outer outer') (item : Value) :
    c.Loose p q t π (Runner.runItem c.setup call a outer item)
      (Runner.runItem c.setup call b outer' item) := by
  apply Loose.newTableThen
  intro ρ i j hle hij
  exact loose_runOnce h hcall ha hab ((hscope.mono hle).table hij)

theorem loose_runDue (h : c.Deferral p q f t) (hcall : c.CallLoose p q f t call)
    (ha : a ∈ p.declared) (hab : Loosened p f t a b) {outer outer' : Scope}
    (hscope : Scope.Mirrors π outer outer') :
    c.Loose p q t π (Runner.runDue c.setup call a outer) (Runner.runDue c.setup call b outer') := by
  have hitems : b.items = a.items := by cases hab <;> rfl
  unfold Runner.runDue
  rw [hitems]
  cases a.items with
  | none => exact loose_runOnce h hcall ha hab hscope
  | some items =>
    exact .anyChanged (List.forall₂_same.mpr fun item _ =>
      loose_runItem h hcall ha hab hscope item)

theorem loose_runTaskWith (h : c.Deferral p q f t) (hcall : c.CallLoose p q f t call)
    (ha : a ∈ p.declared) (hab : Loosened p f t a b) {outer outer' : Scope}
    (hscope : Scope.Mirrors π outer outer') :
    c.Loose p q t π (Runner.runTaskWith c.setup call a outer)
      (Runner.runTaskWith c.setup call b outer') := by
  have hdue : b.due c.setup outer' = a.due c.setup outer' := by cases hab <;> rfl
  rw [Runner.runTaskWith_eq, Runner.runTaskWith_eq, hdue]
  refine .read (fun w hw => hw.run_due c.setup a outer) (fun w hw => hw.run_due c.setup a outer')
    (fun hle => Task.related_due fun key hkey =>
      ((hscope.mono hle).task a).related_read (h.unread a ha key hkey)) ?_
  rintro (e | _ | _)
  · exact .stop (fun _ => Runner.goes_fail a a.name "" (.expr e))
      (fun _ => Runner.goes_fail b b.name "" (.expr e)) fun _ _ _ hrun => by cases hrun
  · have hskipped : c.Lockstep p q π (pure false) (pure false) := .pure false
    exact .of_lockstep hskipped fun _ => .pure false
  · exact loose_runDue h hcall ha hab hscope

/-- The tasks that are not around the deferred task are the same in both plays. -/
theorem Deferral.shares (h : c.Deferral p q f t) (hhosts : c.hosts = Eq) :
    c.Shares p q fun a => a ∈ p.declared ∧ ¬ p.Encloses a t where
  name := h.name.symm
  module := by
    rintro a ⟨ha, hnot⟩
    cases hm : p.module? a.command with
    | none => exact h.module?_none hm
    | some m =>
      obtain ⟨m', hm', hname, htasks⟩ := h.exists_module hm
      have hsame : List.Forall₂ (fun x y : Task => y = x) m.tasks m'.tasks := by
        have hsubs : ∀ sub ∈ m.tasks, sub ≠ t := by
          rintro _ hsub rfl
          exact hnot ⟨ha, .single (by simpa [Play.subtasks, hm] using hsub)⟩
        have hboth : List.Forall₂ (fun x y => x ≠ t ∧ Task.Defers f t x y) m.tasks m'.tasks :=
          (List.forall₂_and_left _ _).mpr ⟨hsubs, htasks⟩
        exact hboth.imp fun x y hxy => hxy.2.resolve_right fun hdeferred => hxy.1 hdeferred.1
      have hlist : m'.tasks = m.tasks := by simpa using map_eq_map (f := id) (g := id) hsame
      rw [hm']
      cases m
      cases m'
      cases hname
      cases hlist
      rfl
  sub := by
    rintro a ⟨ha, hnot⟩ sub hsub
    exact ⟨Play.subtasks_subset_declared hsub, fun hencloses =>
      hnot ⟨ha, .head hsub hencloses.2⟩⟩
  unread a ha := h.unread a ha.1
  steady a _ params command _ := hhosts ▸ Command.steady_eq c.setup.host a command

theorem loose_runTask (h : c.Deferral p q f t) (hhosts : c.hosts = Eq) (depth : Nat) :
    c.CallLoose p q f t (Runner.runTask c.setup depth) := by
  induction depth with
  | zero =>
    refine ⟨fun table => Runner.goes_runTask c.setup 0, fun _ _ _ => ?_⟩
    exact .stop (fun _ _ _ => .deep .refl) (fun _ _ _ => .deep .refl) fun _ _ _ hrun =>
      by cases hrun
  | succ depth ih =>
    refine ⟨fun table => Runner.goes_runTask c.setup (depth + 1), fun {π a b scope scope'} hab ha
      hscope => ?_⟩
    by_cases hencloses : p.Encloses a t
    · have hne : a ≠ t := by
        rintro rfl
        obtain ⟨m, hm⟩ := hencloses.exists_module
        rw [h.command ha] at hm
        cases hm
      obtain rfl : b = a := hab.resolve_right fun hdeferred => hne hdeferred.1
      exact loose_runTaskWith h ih ha (.around hencloses) hscope
    · rcases hab with rfl | ⟨rfl, rfl⟩
      · -- Nothing below the task is deferred, so the two calls keep step.
        have hkeeps : c.Lockstep p q π (Runner.runTask c.setup (depth + 1) b scope)
            (Runner.runTask c.setup (depth + 1) b scope') :=
          (lockstep_runTask (h.shares hhosts) (depth + 1)).keeps ⟨ha, hencloses⟩ hscope
        exact .of_lockstep hkeeps fun table =>
          Runner.goes_runTask c.setup (depth + 1) b scope' (own_owner scope' table)
      · exact loose_runTaskWith h ih ha .deferred hscope

end

end Comparison

end PlaybookRunner
