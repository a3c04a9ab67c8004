import Mathlib.Logic.Relation
import PlaybookRunner.Proofs.Failure

/-!
# The moves of a task

In a world without pending futures reading changes nothing. All that a task does to the
state of a run are then moves of four kinds: it works on variables and tables, it tells
that something starts, it reports a result, or it is dispatched and leaves a settled
future. A task
that fails ends with the report of its own failure and those of the calls around it.
Whatever a move keeps, a task keeps.
-/

namespace PlaybookRunner

variable {σ α β : Type} {host : Host σ} {w v u : World σ}

namespace World

/-- No future is pending. -/
def Settled (w : World σ) : Prop :=
  ∀ (i : Nat) (f : Future) (job : Job), w.futures[i]? = some f → f.progress ≠ .pending job

/-- Variables of the owned tables are written, and tables are added. -/
structure Writes (own : Nat → Prop) (w v : World σ) : Prop where
  futures : v.futures = w.futures
  recorded : v.recorded = w.recorded
  size_le : w.tables.size ≤ v.tables.size
  kept : ∀ i < w.tables.size, ¬ own i → v.tables[i]? = w.tables[i]?
  bound : ∀ i, (v.table i).futures = (w.table i).futures

theorem table_eq (w : World σ) (i : Nat) : w.table i = w.tables[i]?.getD {} := by
  rw [table, Array.getD_eq_getD_getElem?]

theorem getElem?_modifyTable (i j : Nat) (change : Table → Table) (w : World σ) :
    (w.modifyTable i change).tables[j]? =
      if i = j then (w.tables[j]?).map change else w.tables[j]? := by
  simp [modifyTable, Array.getElem?_modify]

theorem table_modifyTable_of_ne {i j : Nat} (h : i ≠ j) (change : Table → Table) (w : World σ) :
    (w.modifyTable i change).table j = w.table j := by
  rw [table_eq, table_eq, getElem?_modifyTable, if_neg h]

theorem table_modifyTable_self {i : Nat} (h : i < w.tables.size) (change : Table → Table) :
    (w.modifyTable i change).table i = change (w.table i) := by
  rw [table_eq, table_eq, getElem?_modifyTable, if_pos rfl, Array.getElem?_eq_getElem h]
  rfl

theorem size_modifyTable (i : Nat) (change : Table → Table) (w : World σ) :
    (w.modifyTable i change).tables.size = w.tables.size := Array.size_modify

theorem getElem?_newTable_of_lt {i : Nat} (h : i < w.tables.size) (vars : Vars) :
    (w.newTable vars).2.tables[i]? = w.tables[i]? := by
  change (w.tables.push _)[i]? = _
  rw [Array.getElem?_push_lt h, Array.getElem?_eq_getElem h]

theorem table_newTable_of_lt {i : Nat} (h : i < w.tables.size) (vars : Vars) :
    (w.newTable vars).2.table i = w.table i := by
  rw [table_eq, table_eq, getElem?_newTable_of_lt h]

theorem table_newTable_self (vars : Vars) (w : World σ) :
    (w.newTable vars).2.table w.tables.size = { vars } := by
  rw [table_eq]
  change (w.tables.push _)[w.tables.size]?.getD {} = _
  rw [Array.getElem?_push_size]
  rfl

namespace Writes

variable {own : Nat → Prop}

theorem refl (w : World σ) : w.Writes own w :=
  ⟨rfl, rfl, Nat.le_refl _, fun _ _ _ => rfl, fun _ => rfl⟩

theorem trans (h : w.Writes own v) (h' : v.Writes own u) : w.Writes own u where
  futures := h'.futures.trans h.futures
  recorded := h'.recorded.trans h.recorded
  size_le := Nat.le_trans h.size_le h'.size_le
  kept i hi hown := (h'.kept i (Nat.lt_of_lt_of_le hi h.size_le) hown).trans (h.kept i hi hown)
  bound i := (h'.bound i).trans (h.bound i)

theorem set {scope : Scope} (h : ∀ i, scope.owner? = some i → own i) (key : String)
    (value : Value) (w : World σ) : w.Writes own (w.set scope key value) := by
  unfold World.set
  cases hscope : scope.owner? with
  | none => exact .refl w
  | some i =>
    have hown : own i := h i hscope
    refine ⟨rfl, rfl, Nat.le_of_eq (size_modifyTable i _ w).symm, fun j _ hj => ?_, fun j => ?_⟩
    · have hne : i ≠ j := fun hij => hj (hij ▸ hown)
      exact (getElem?_modifyTable i j _ w).trans (if_neg hne)
    · by_cases hij : i = j
      · subst hij
        rw [table_eq, table_eq, getElem?_modifyTable, if_pos rfl]
        cases w.tables[i]? <;> rfl
      · exact congrArg Table.futures (table_modifyTable_of_ne hij _ w)

theorem extend {scope : Scope} (h : ∀ i, scope.owner? = some i → own i) (facts : Vars)
    (w : World σ) : w.Writes own (w.extend scope facts) := by
  unfold World.extend
  induction facts generalizing w with
  | nil => exact .refl w
  | cons fact rest ih =>
    rw [List.foldl_cons]
    exact (Writes.set h fact.1 fact.2 w).trans (ih _)

theorem newTable (vars : Vars) (w : World σ) : w.Writes own (w.newTable vars).2 := by
  have hsize : (w.newTable vars).2.tables.size = w.tables.size + 1 := Array.size_push _
  refine ⟨rfl, rfl, by omega, fun i hi _ => getElem?_newTable_of_lt hi vars, fun i => ?_⟩
  rcases Nat.lt_trichotomy i w.tables.size with hi | rfl | hi
  · rw [table_newTable_of_lt hi]
  · rw [table_newTable_self, table_eq, Array.getElem?_eq_none (Nat.le_refl _)]
    rfl
  · have hnew : (w.newTable vars).2.tables[i]? = none := Array.getElem?_eq_none (by omega)
    have hold : w.tables[i]? = none := Array.getElem?_eq_none (by omega)
    rw [table_eq, table_eq, hnew, hold]

end Writes

theorem settled_fresh (host : σ) : ({ host } : World σ).Settled := by
  intro i f job hf
  cases hf

namespace Settled

theorem exists_answer (h : w.Settled) (i : Nat) : ∃ o, w.answer? i = some o := by
  rcases w.answered_or_pending i with ho | ⟨f, job, hf, hp⟩
  · exact ho
  · exact absurd hp (h i f job hf)

theorem of_futures (h : w.Settled) (hv : v.futures = w.futures) : v.Settled := by
  intro i f job hf
  rw [hv] at hf
  exact h i f job hf

theorem push (h : w.Settled) {f : Future} (hf : ∀ job, f.progress ≠ .pending job)
    (hv : v.futures = w.futures.push f) : v.Settled := by
  intro i g job hg
  rw [hv, Array.getElem?_push] at hg
  split at hg
  · cases hg
    exact hf job
  · exact h i g job hg

theorem run_force (h : w.Settled) (i : Nat) : ((Future.force host i).run w).2 = w := by
  obtain ⟨o, ho⟩ := h.exists_answer i
  rw [Future.run_force_of_answer? ho]

/-- Reading in a settled world leaves it as it is. -/
theorem agree_read (h : w.Settled) (scope : Scope) (key : String) :
    Agree (fun v => v = w) (scope.read host key) (scope.read host key) := by
  apply Scope.agree_readWith
  intro i
  apply Agree.of_eq
  rintro v rfl
  exact ⟨rfl, h.run_force i⟩

theorem run_prepare (h : w.Settled) (setup : Setup σ) (play : Play) (t : Task) (scope : Scope) :
    ((t.prepare setup play scope).run w).2 = w :=
  (Task.agree_prepare play t (h.agree_read scope)).keeps rfl

theorem run_due (h : w.Settled) (setup : Setup σ) (t : Task) (outer : Scope) :
    ((t.due setup outer).run w).2 = w :=
  (t.agree_due (h.agree_read (t.scope outer))).keeps rfl

/-- A command in a settled world only writes to the table that owns its scope. -/
theorem writes_command {own : Nat → Prop} (h : w.Settled) {scope : Scope}
    (hown : ∀ i, scope.owner? = some i → own i) (t : Task) (command : Command) :
    w.Writes own ((command.run host scope t).run w).2 := by
  have hread (key : String) : Related (fun v u => v = u ∧ w.Writes own v)
      (scope.read host key) (scope.read host key) := by
    rintro v _ ⟨rfl, hv⟩
    have hsame : ((scope.read host key).run v).2 = v :=
      ((h.of_futures hv.futures).agree_read scope key).keeps rfl
    exact ⟨rfl, rfl, hsame.symm ▸ hv⟩
  have hkeeps : Command.Keeps (fun v u : World σ => v = u ∧ w.Writes own v) Eq scope scope := by
    refine ⟨?_, ?_, ?_⟩
    · rintro v _ ⟨rfl, -⟩
      rfl
    · rintro v _ s _ ⟨rfl, hv⟩ rfl
      exact ⟨rfl, hv.trans ⟨rfl, rfl, Nat.le_refl _, fun _ _ _ => rfl, fun _ => rfl⟩⟩
    · rintro v _ facts ⟨rfl, hv⟩
      exact ⟨rfl, hv.trans (.extend hown facts v)⟩
  exact (Command.related_runWith hkeeps command (Command.steady_eq host t command)
    (fun key _ => hread key) w w ⟨rfl, .refl w⟩).2.2

end Settled

end World

namespace Command

/-- The result that is recorded of a command's outcome. -/
def resultOf : Except CommandError TaskResult → TaskResult
  | .ok result => result
  | .error e => failureResult e

end Command

theorem Job.run_command (command : Command) (scope : Scope) (t : Task) (w : World σ) :
    ((Job.command command scope t).runWith host (Future.force host)).run w =
      let done := (command.run host scope t).run w
      (done.1.mapError CommandError.message, done.2.record t (Command.resultOf done.1)) := by
  rw [runWith, StateT.run_bind]
  change StateT.run (match ((command.run host scope t).run w).1 with
    | .ok result => _
    | .error e => _) ((command.run host scope t).run w).2 = _
  dsimp only
  cases ((command.run host scope t).run w).1 <;> rfl

section

variable {ε ρ α β : Type} {x : ExceptT ε (StateM ρ) α} {f : α → ExceptT ε (StateM ρ) β} {s v : ρ}

theorem run_bind_of_ok {a : α} (h : x.run.run s = (.ok a, v)) :
    (x >>= f).run.run s = (f a).run.run v := by
  change (ExceptT.bindCont f (x.run.run s).1).run (x.run.run s).2 = _
  rw [h]
  rfl

theorem run_bind_of_error {e : ε} (h : x.run.run s = (.error e, v)) :
    (x >>= f).run.run s = (.error e, v) := by
  change (ExceptT.bindCont f (x.run.run s).1).run (x.run.run s).2 = _
  rw [h]
  rfl

end

namespace Step

variable {x : Step σ α} {s v : RunState σ}

theorem run_outcome {o : Except Stop α} (h : x.run.run s = (o, v)) :
    (outcome x).run.run s = (.ok o, v) := by
  change (Except.ok (x.run.run s).1, (x.run.run s).2) = _
  rw [h]

end Step

namespace RunState

variable {s s' : RunState σ} {n table : Nat}

/-- The state after the report of a result. -/
def report (t : Task) (result : TaskResult) (s : RunState σ) : RunState σ where
  world := s.world.record t result
  events := s.events.push (.finishTask t (some result))
  current := if !result.failed && result.changed then s.current.notify t else s.current

/-- The state after the report of a deferred task that has settled well. -/
def afterAwait (t : Task) (result : TaskResult) (s : RunState σ) : RunState σ where
  world := s.world
  events := s.events.push (.finishTask t (some result))
  current := if result.changed then s.current.notify t else s.current

/-- The state after the result of a finished task has been registered and reported. -/
def afterCompletion (t : Task) (result : TaskResult) (s : RunState σ) : RunState σ :=
  match t.register with
  | some name => report t result { s with
      world := s.world.set [.table s.current.table] name result.registered.toValue }
  | none => report t result s

/-- The world in which a deferred command runs: its future is running already. -/
def deferring (s : RunState σ) (future : String) (job : Job) : World σ :=
  (s.world.addFuture s.current.table future job).2.start s.world.futures.size

/-- The state after a deferred command with an outcome. -/
def afterDispatch (t : Task) (name : String) (done : Except CommandError TaskResult × World σ)
    (s : RunState σ) : RunState σ where
  world := (done.2.record t (Command.resultOf done.1)).settle s.world.futures.size
    (done.1.mapError CommandError.message)
  events := s.events.push (.finishTask t none)
  current := { s.current with
    deferred := s.current.deferred ++ [{ task := t, name, future := s.world.futures.size }] }

/-- The tables that a part may write: that of the running play, and those that were
added since there were so many. -/
def Own (n table i : Nat) : Prop := i = table ∨ n ≤ i

/-- A future that has settled is added for a deferred task. -/
structure Dispatches (n : Nat) (s : RunState σ) (d : Deferred) (result : TaskResult)
    (v : RunState σ) : Prop where
  events : v.events = s.events.push (.finishTask d.task none)
  recorded : v.world.recorded = s.world.recorded.push (d.task, result)
  current : v.current = { s.current with deferred := s.current.deferred ++ [d] }
  future : d.future = s.world.futures.size
  futures : ∃ (name : String) (outcome : Except String TaskResult),
    v.world.futures = s.world.futures.push { name, progress := .ofOutcome outcome } ∧
    ∀ r, outcome = .ok r → r = result
  size_le : s.world.tables.size ≤ v.world.tables.size
  kept : ∀ i < s.world.tables.size, ¬ Own n s.current.table i →
    v.world.tables[i]? = s.world.tables[i]?

/-- One move of a task. -/
inductive Move (n : Nat) : RunState σ → RunState σ → Prop
  | work {s : RunState σ} {w : World σ} (h : s.world.Writes (Own n s.current.table) w) :
      Move n s { s with world := w }
  | tell {s : RunState σ} {e : Event} (he : ∀ t result, e ≠ .finishTask t result) :
      Move n s (s.push e)
  | report {s : RunState σ} (t : Task) (result : TaskResult) : Move n s (s.report t result)
  | dispatch {s v : RunState σ} {d : Deferred} {result : TaskResult}
      (h : s.Dispatches n d result v) : Move n s v

abbrev Moves (n : Nat) : RunState σ → RunState σ → Prop := Relation.ReflTransGen (Move n)

/-- The last reports of a task that fails: in a turn of its own, of its command, or of
a call after what failed inside it. -/
inductive Fails : RunState σ → RunState σ → Prop
  | turn {s : RunState σ} (t : Task) (name args : String) (cause : Error) :
      Fails s ((s.push (.startTask t name args [])).push
        (.finishTask t (some (TaskResult.ofFailure cause.message))))
  | command {s : RunState σ} (t : Task) {result : TaskResult} (h : result.failed = true) :
      Fails s (s.report t result)
  | call {s v : RunState σ} (h : Fails s v) (t : Task) (cause : Error) :
      Fails s (v.push (.finishTask t (some (TaskResult.ofFailure cause.message))))

/-- How a part ends that consists of moves. -/
inductive Ended (n : Nat) (s : RunState σ) : Except Stop α → RunState σ → Prop
  | done (a : α) {v : RunState σ} (h : s.Moves n v) : Ended n s (.ok a) v
  | deep {v : RunState σ} (h : s.Moves n v) : Ended n s (.error .tooDeep) v
  | failed (e : Error) {u v : RunState σ} (h : s.Moves n u) (hfails : u.Fails v) :
      Ended n s (.error (.failed e)) v

/-- A state in which a part may make moves. -/
structure Ready (n table : Nat) (s : RunState σ) : Prop where
  settled : s.world.Settled
  size_le : n ≤ s.world.tables.size
  table : s.current.table = table

theorem Dispatches.settled (h : s.world.Settled) {d : Deferred} {result : TaskResult}
    (hd : s.Dispatches n d result s') : s'.world.Settled := by
  obtain ⟨name, outcome, hfutures, -⟩ := hd.futures
  refine h.push (fun job => ?_) hfutures
  cases outcome <;> simp [Progress.ofOutcome]

theorem table_report (t : Task) (result : TaskResult) (s : RunState σ) :
    (s.report t result).current.table = s.current.table := by
  unfold report
  dsimp only
  split <;> rfl

theorem Move.ready (h : s.Ready n table) (hm : s.Move n s') : s'.Ready n table := by
  obtain ⟨hsettled, hsize, htable⟩ := h
  cases hm with
  | work hw => exact ⟨hsettled.of_futures hw.futures, Nat.le_trans hsize hw.size_le, htable⟩
  | tell he => exact ⟨hsettled, hsize, htable⟩
  | report t result =>
    exact ⟨hsettled.of_futures rfl, hsize, (table_report t result s).trans htable⟩
  | dispatch hd =>
    refine ⟨hd.settled hsettled, Nat.le_trans hsize hd.size_le, ?_⟩
    rw [hd.current]
    exact htable

theorem Moves.ready (h : s.Ready n table) (hm : s.Moves n s') : s'.Ready n table := by
  induction hm with
  | refl => exact h
  | tail _ hstep ih => exact hstep.ready ih

section

variable {u v : RunState σ}

theorem prefix_push (L : Array Event) (e : Event) : L.toList <+: (L.push e).toList := by
  rw [Array.toList_push]
  exact List.prefix_append _ _

theorem Move.events (h : s.Move n v) : s.events.toList <+: v.events.toList := by
  cases h with
  | work _ => exact List.prefix_refl _
  | tell _ => exact prefix_push _ _
  | report t result => exact prefix_push _ _
  | dispatch hd => exact hd.events ▸ prefix_push _ _

theorem Moves.events (h : s.Moves n v) : s.events.toList <+: v.events.toList := by
  induction h with
  | refl => exact List.prefix_refl _
  | tail _ hstep ih => exact ih.trans hstep.events

theorem Fails.events (h : s.Fails v) : s.events.toList <+: v.events.toList := by
  induction h with
  | turn => exact (prefix_push _ _).trans (prefix_push _ _)
  | command t _ => exact prefix_push _ _
  | call _ t cause ih => exact ih.trans (prefix_push _ _)

theorem Fails.ready (h : s.Ready n table) (hf : s.Fails v) : v.Ready n table := by
  induction hf with
  | turn => exact ⟨h.settled, h.size_le, h.table⟩
  | command t hfailed => exact Move.ready h (.report t _)
  | call _ t cause ih => exact ⟨ih.settled, ih.size_le, ih.table⟩

theorem Ended.ready {o : Except Stop α} (h : s.Ready n table) (hv : s.Ended n o v) :
    v.Ready n table := by
  cases hv with
  | done _ hv => exact hv.ready h
  | deep hv => exact hv.ready h
  | failed _ hv hfails => exact hfails.ready (hv.ready h)

theorem Ended.events {o : Except Stop α} (h : s.Ended n o v) :
    s.events.toList <+: v.events.toList := by
  cases h with
  | done _ hv => exact hv.events
  | deep hv => exact hv.events
  | failed _ hv hfails => exact hv.events.trans hfails.events

end

theorem Ended.after {u v : RunState σ} {o : Except Stop α} (h : s.Moves n u) (hv : u.Ended n o v) :
    s.Ended n o v := by
  cases hv with
  | done a hv => exact .done a (h.trans hv)
  | deep hv => exact .deep (h.trans hv)
  | failed e hv hfails => exact .failed e (h.trans hv) hfails

/-- A part that has stopped, stops whatever would have followed. -/
theorem Ended.stop {v : RunState σ} {e : Stop} (h : s.Ended n (.error e : Except Stop α) v) :
    s.Ended n (.error e : Except Stop β) v := by
  cases h with
  | deep hv => exact .deep hv
  | failed e hv hfails => exact .failed e hv hfails

theorem futures_deferring (s : RunState σ) (future : String) (job : Job) :
    (s.deferring future job).futures =
      s.world.futures.push { name := future, progress := .running } := by
  change (s.world.futures.push _).modify s.world.futures.size
    (fun f : Future => { f with progress := .running }) = _
  apply Array.ext_getElem?
  intro i
  rw [Array.getElem?_modify, Array.getElem?_push, Array.getElem?_push]
  by_cases hi : i = s.world.futures.size
  · simp [hi]
  · have hne : ¬ s.world.futures.size = i := fun h => hi h.symm
    simp [hi, hne]

theorem tables_deferring (s : RunState σ) (future : String) (job : Job) :
    (s.deferring future job).tables = (s.world.modifyTable s.current.table fun t =>
      { t with futures := t.futures.put future s.world.futures.size }).tables := rfl

theorem settled_deferring (h : s.world.Settled) (future : String) (job : Job) :
    (s.deferring future job).Settled :=
  h.push (by simp) (s.futures_deferring future job)

/-- What a deferred command leaves is a settled future and what it wrote. -/
theorem futures_afterDispatch (s : RunState σ) (t : Task) (name future : String) (job : Job)
    {done : Except CommandError TaskResult × World σ}
    (hdone : done.2.futures = (s.deferring future job).futures) :
    (s.afterDispatch t name done).world.futures = s.world.futures.push
      { name := future, progress := .ofOutcome (done.1.mapError CommandError.message) } := by
  rw [futures_deferring] at hdone
  change done.2.futures.modify s.world.futures.size (fun f : Future =>
    { f with progress := .ofOutcome (done.1.mapError CommandError.message) }) = _
  rw [hdone]
  apply Array.ext_getElem?
  intro i
  rw [Array.getElem?_modify, Array.getElem?_push, Array.getElem?_push]
  by_cases hi : i = s.world.futures.size
  · simp [hi]
  · have hne : ¬ s.world.futures.size = i := fun h => hi h.symm
    simp [hi, hne]

end RunState

namespace Runner

open Step RunState

variable {setup : Setup σ} {s : RunState σ}

theorem run_complete (t : Task) (result : TaskResult) (s : RunState σ) :
    (complete t result).run.run s = (.ok (), s.afterCompletion t result) := by
  unfold afterCompletion complete report
  cases t.register with
  | none => cases !result.failed && result.changed <;> rfl
  | some name => cases !result.failed && result.changed <;> rfl

theorem run_dispatch (t : Task) (name future : String) (command : Command) (scope : Scope)
    (s : RunState σ) :
    (dispatch setup t name future command scope).run.run s = (.ok (), s.afterDispatch t name
      ((command.run setup.host scope t).run
        (s.deferring future (.command command scope t)))) := by
  let added := s.world.addFuture s.current.table future (.command command scope t)
  have hf : added.2.futures[added.1]? = some ⟨future, .pending (.command command scope t)⟩ := by
    change (s.world.futures.push _)[s.world.futures.size]? = _
    exact Array.getElem?_push_size
  have hforce : ((Future.force setup.host added.1).run added.2).2 =
      (s.afterDispatch t name ((command.run setup.host scope t).run
        (s.deferring future (.command command scope t)))).world := by
    rw [Future.run_force_pending hf rfl, Job.run_command]
    rfl
  have hrun : (dispatch setup t name future command scope).run.run s = (.ok (),
      { world := ((Future.force setup.host added.1).run added.2).2
        events := s.events.push (.finishTask t none)
        current := { s.current with
          deferred := s.current.deferred ++ [{ task := t, name, future := added.1 }] } }) := rfl
  rw [hrun, hforce]
  rfl

theorem play_afterCompletion (t : Task) (result : TaskResult) (s : RunState σ) :
    (s.afterCompletion t result).current.play = s.current.play := by
  unfold afterCompletion report
  cases t.register <;> (dsimp only; split <;> rfl)

theorem run_runCommand (t : Task) (name : String) (command : Command) (scope : Scope)
    (s : RunState σ) :
    (runCommand setup t name command scope).run.run s =
      let done := (command.run setup.host scope t).run s.world
      (match done.1 with
        | .ok result => .ok result.changed
        | .error e => .error (.failed ((Error.command e).inTask s.current.play.name name)),
        ({ s with world := done.2 } : RunState σ).afterCompletion t (Command.resultOf done.1)) := by
  dsimp only
  rcases hdone : (command.run setup.host scope t).run s.world with ⟨o, w⟩
  have hworld : (inWorld (command.run setup.host scope t)).run.run s =
      (.ok o, { s with world := w }) := by
    rw [run_inWorld, hdone]
  unfold runCommand
  rw [run_bind_of_ok hworld]
  cases o with
  | ok result => exact run_bind_of_ok (run_complete t result { s with world := w })
  | error e =>
    have hplay := play_afterCompletion t (Command.failureResult e) { s with world := w }
    change (complete t _ >>= fun _ => failTask name (.command e)).run.run _ = _
    rw [run_bind_of_ok (run_complete t _ _)]
    change (Except.error (Stop.failed (Error.inTask _ _ name)), _) = _
    rw [hplay]
    rfl

end Runner

namespace Step

variable {n table : Nat} {x : Step σ α} {f : α → Step σ β} {s : RunState σ}

/-- The part makes moves only. -/
def Goes (n table : Nat) (x : Step σ α) : Prop :=
  ∀ s, s.Ready n table → x.Ends s (s.Ended n)

namespace Goes

theorem pure (a : α) : Goes n table (pure a : Step σ α) := fun _ _ => .done a .refl

theorem bind (hx : Goes n table x) (hf : ∀ a, Goes n table (f a)) : Goes n table (x >>= f) := by
  intro s hs
  apply (hx s hs).bind
  · rintro a v ⟨_, hv⟩
    exact (hf a v (hv.ready hs)).mono fun o w hw => hw.after hv
  · exact fun e v hv => hv.stop

theorem getThen {g : RunState σ → Step σ α} (h : ∀ s, s.Ready n table → (g s).Ends s (s.Ended n)) :
    Goes n table (get >>= g) := fun s hs => h s hs

theorem emit {e : Event} (he : ∀ t result, e ≠ .finishTask t result) :
    Goes n table (Step.emit e : Step σ Unit) := fun _ _ => .done _ (.single (.tell he))

/-- What only reads makes no move. -/
theorem read {z : RunM σ α} (h : ∀ w : World σ, w.Settled → (z.run w).2 = w) :
    Goes n table (Step.inWorld z) := by
  intro s hs
  refine .done _ ?_
  change s.Moves n { s with world := (z.run s.world).2 }
  rw [h s.world hs.settled]

theorem newTableThen {vars : Vars} {f : Nat → Step σ α} (h : ∀ i, n ≤ i → Goes n table (f i)) :
    Goes n table (Step.newTable vars >>= f) := by
  intro s hs
  have hmove : s.Move n { s with world := (s.world.newTable vars).2 } :=
    .work (.newTable vars s.world)
  exact (h s.world.tables.size hs.size_le _ (hmove.ready hs)).mono fun o v hv =>
    hv.after (.single hmove)

end Goes

end Step

namespace Runner

open Step RunState

variable {setup : Setup σ} {s : RunState σ} {n table : Nat}

theorem goes_fail (t : Task) (name args : String) (cause : Error) :
    Goes n table (reportFailure t name args cause >>= fun _ =>
      failTask (α := α) name cause : Step σ α) :=
  fun _ _ => .failed _ .refl (.turn t name args cause)

/-- A completion registers a variable of the play, and reports. -/
theorem afterCompletion_eq (t : Task) (result : TaskResult) (s : RunState σ) :
    ∃ w, s.world.Writes (Own n s.current.table) w ∧
      s.afterCompletion t result = ({ s with world := w } : RunState σ).report t result := by
  unfold afterCompletion
  cases t.register with
  | none => exact ⟨s.world, .refl _, rfl⟩
  | some name =>
    refine ⟨_, .set (fun i hi => ?_) name result.registered.toValue s.world, rfl⟩
    cases hi
    exact .inl rfl

theorem goes_runCommand (t : Task) (name : String) (command : Command) {scope : Scope}
    (hown : ∀ i, scope.owner? = some i → Own n table i) :
    Goes n table (runCommand setup t name command scope) := by
  rintro s ⟨hsettled, hsize, rfl⟩
  unfold Ends
  rw [run_runCommand]
  dsimp only
  have hwrites : s.world.Writes (Own n s.current.table)
      ((command.run setup.host scope t).run s.world).2 := hsettled.writes_command hown t command
  rcases hdone : (command.run setup.host scope t).run s.world with ⟨o, w⟩
  rw [hdone] at hwrites
  obtain ⟨w', hw', hcompleted⟩ := afterCompletion_eq (n := n) t (Command.resultOf o)
    { s with world := w }
  have hwork : s.Moves n { s with world := w' } := .single (.work (hwrites.trans hw'))
  rw [hcompleted]
  cases o with
  | ok result => exact .done _ (hwork.tail (.report t result))
  | error e => exact .failed _ hwork (.command t (Command.failed_failureResult e))

theorem dispatches_afterDispatch (hs : s.Ready n table) (t : Task) (name future : String)
    (command : Command) {scope : Scope} (hown : ∀ i, scope.owner? = some i → Own n table i) :
    let done := (command.run setup.host scope t).run (s.deferring future (.command command scope t))
    s.Dispatches n { task := t, name, future := s.world.futures.size } (Command.resultOf done.1)
      (s.afterDispatch t name done) := by
  obtain ⟨hsettled, hsize, rfl⟩ := hs
  intro done
  have hwrites : (s.deferring future (.command command scope t)).Writes
      (Own n s.current.table) done.2 :=
    (settled_deferring hsettled future _).writes_command hown t command
  have htables : (s.deferring future (.command command scope t)).tables.size =
      s.world.tables.size := by
    rw [tables_deferring, World.size_modifyTable]
  refine ⟨rfl, ?_, rfl, rfl,
    ⟨future, _, futures_afterDispatch s t name future _ hwrites.futures, ?_⟩,
    ?_, fun i hi hother => ?_⟩
  · change done.2.recorded.push _ = _
    rw [hwrites.recorded]
    rfl
  · intro r hr
    cases hdone : done.1 with
    | ok result =>
      rw [hdone] at hr
      cases hr
      rfl
    | error e =>
      rw [hdone] at hr
      cases hr
  · change s.world.tables.size ≤ done.2.tables.size
    exact htables ▸ hwrites.size_le
  · have hne : s.current.table ≠ i := fun h => hother (.inl h.symm)
    have hkept : done.2.tables[i]? = (s.deferring future (.command command scope t)).tables[i]? :=
      hwrites.kept i (htables ▸ hi) hother
    change done.2.tables[i]? = _
    rw [hkept, tables_deferring, World.getElem?_modifyTable, if_neg hne]

theorem goes_dispatch (t : Task) (name future : String) (command : Command) {scope : Scope}
    (hown : ∀ i, scope.owner? = some i → Own n table i) :
    Goes n table (dispatch setup t name future command scope) := by
  intro s hs
  unfold Ends
  rw [run_dispatch]
  exact .done _ (.single (.dispatch (dispatches_afterDispatch hs t name future command hown)))

theorem goes_anyChanged {run : α → Step σ Bool} (as : List α) (hrun : ∀ a, Goes n table (run a)) :
    Goes n table (anyChanged run as) := by
  induction as with
  | nil => exact .pure _
  | cons a as ih => exact (hrun a).bind fun _ => ih.bind fun _ => .pure _

/-- A part that may write to the tables of the scope. -/
def CallGoes (n table : Nat) (call : Task → Scope → Step σ Bool) : Prop :=
  ∀ sub outer, (∀ i, Scope.owner? outer = some i → Own n table i) → Goes n table (call sub outer)

/-- The rest of a module call when its tasks have ended. -/
def closing (t : Task) (name : String) : Except Stop Bool → Step σ Bool
  | .ok changed => do
    complete t (if changed then TaskResult.ofChange else TaskResult.ok)
    return changed
  | .error .tooDeep => throw .tooDeep
  | .error (.failed cause) => do
    emit (.finishTask t (some (TaskResult.ofFailure cause.message)))
    failTask name cause

theorem callModule_eq (call : Task → Scope → Step σ Bool) (t : Task) (prepared : Prepared)
    (m : Module) (scope : Scope) :
    callModule call t prepared m scope = newTable prepared.params >>= fun i =>
      outcome (anyChanged (fun sub => call sub (.table i :: scope)) m.tasks) >>=
        closing t prepared.name := rfl

/-- How a module call ends whose tasks have ended so. -/
def closed (t : Task) (name : String) : Except Stop Bool → RunState σ →
    Except Stop Bool × RunState σ
  | .ok changed, v =>
    (.ok changed, v.afterCompletion t (if changed then TaskResult.ofChange else TaskResult.ok))
  | .error .tooDeep, v => (.error .tooDeep, v)
  | .error (.failed cause), v => (.error (.failed (cause.inTask v.current.play.name name)),
      v.push (.finishTask t (some (TaskResult.ofFailure cause.message))))

theorem run_closing {x : Step σ Bool} {o : Except Stop Bool} {v : RunState σ} (t : Task)
    (name : String) (hrun : x.run.run s = (o, v)) :
    (outcome x >>= closing t name).run.run s = closed t name o v := by
  rw [run_bind_of_ok (run_outcome hrun)]
  rcases o with (cause | _) | changed
  · rfl
  · rfl
  · exact run_bind_of_ok (run_complete t _ v)

theorem goes_closing {x : Step σ Bool} (hx : Goes n table x) (t : Task) (name : String) :
    Goes n table (outcome x >>= closing t name) := by
  intro s hs
  have hends : s.Ended n _ _ := hx s hs
  unfold Ends
  rcases hrun : x.run.run s with ⟨o, v⟩
  rw [hrun] at hends
  rw [run_closing t name hrun]
  cases hends with
  | failed cause hu hfails => exact .failed _ hu (hfails.call t cause)
  | deep hv => exact .deep hv
  | done changed hv =>
    obtain ⟨w, hw, hcompleted⟩ := afterCompletion_eq (n := n) (s := v) t
      (if changed then TaskResult.ofChange else TaskResult.ok)
    change s.Ended n (.ok changed) (v.afterCompletion t _)
    rw [hcompleted]
    exact .done _ ((hv.tail (.work hw)).tail (.report t _))

theorem goes_callModule {call : Task → Scope → Step σ Bool} (hcall : CallGoes n table call)
    (t : Task) (prepared : Prepared) (m : Module) (scope : Scope) :
    Goes n table (callModule call t prepared m scope) := by
  rw [callModule_eq]
  apply Goes.newTableThen
  intro i hi
  refine goes_closing (goes_anyChanged m.tasks fun sub => hcall sub _ ?_) t prepared.name
  rintro j ⟨⟩
  exact .inr hi

/-- A command runs at once, or is dispatched. -/
def performing (setup : Setup σ) (t : Task) (name : String) (command : Command) (scope : Scope) :
    Step σ Bool :=
  match futureName? t name with
  | some future => do
    dispatch setup t name future command scope
    return false
  | none => runCommand setup t name command scope

/-- What a prepared task does after its start. -/
def acting (setup : Setup σ) (call : Task → Scope → Step σ Bool) (t : Task) (scope : Scope)
    (prepared : Prepared) : Step σ Bool :=
  match prepared.action with
  | .call m => callModule call t prepared m scope
  | .run command => performing setup t prepared.name command scope

/-- What follows the preparation of a task. -/
def starting (setup : Setup σ) (call : Task → Scope → Step σ Bool) (t : Task) (scope : Scope) :
    Except Unprepared Prepared → Step σ Bool
  | .error u => do
    reportFailure t u.name u.args u.cause
    failTask u.name u.cause
  | .ok prepared => do
    emit (.startTask t prepared.name prepared.args prepared.params)
    acting setup call t scope prepared

theorem runOnce_eq (setup : Setup σ) (call : Task → Scope → Step σ Bool) (t : Task)
    (outer : Scope) :
    runOnce setup call t outer = get >>= fun s =>
      inWorld (t.prepare setup s.current.play (t.scope outer)) >>=
        starting setup call t (t.scope outer) := by
  unfold runOnce
  congr 1

theorem goes_acting {call : Task → Scope → Step σ Bool} (hcall : CallGoes n table call) (t : Task)
    {scope : Scope} (hown : ∀ i, scope.owner? = some i → Own n table i) (prepared : Prepared) :
    Goes n table (acting setup call t scope prepared) := by
  unfold acting performing
  cases prepared.action with
  | call m => exact goes_callModule hcall t prepared m scope
  | run command =>
    dsimp only
    cases futureName? t prepared.name with
    | none => exact goes_runCommand t prepared.name command hown
    | some future =>
      exact (goes_dispatch t prepared.name future command hown).bind fun _ => .pure _

theorem goes_starting {call : Task → Scope → Step σ Bool} (hcall : CallGoes n table call) (t : Task)
    {scope : Scope} (hown : ∀ i, scope.owner? = some i → Own n table i)
    (r : Except Unprepared Prepared) : Goes n table (starting setup call t scope r) := by
  cases r with
  | error u => exact goes_fail t u.name u.args u.cause
  | ok prepared => exact (Goes.emit (by simp)).bind fun _ => goes_acting hcall t hown prepared

theorem goes_runOnce {call : Task → Scope → Step σ Bool} (hcall : CallGoes n table call) :
    CallGoes n table (runOnce setup call) := by
  intro t outer hown
  have hscope : ∀ i, (t.scope outer).owner? = some i → Own n table i := hown
  rw [runOnce_eq]
  apply Goes.getThen
  intro s hs
  have hprepare : Goes n table (inWorld (t.prepare setup s.current.play (t.scope outer))) :=
    .read fun w hw => hw.run_prepare setup s.current.play t (t.scope outer)
  have hrest : Goes n table (inWorld (t.prepare setup s.current.play (t.scope outer)) >>=
      starting setup call t (t.scope outer)) := hprepare.bind (goes_starting hcall t hscope)
  exact hrest s hs

theorem goes_runItem {call : Task → Scope → Step σ Bool} (hcall : CallGoes n table call) (t : Task)
    (outer : Scope) (item : Value) : Goes n table (runItem setup call t outer item) := by
  apply Goes.newTableThen
  intro i hi
  refine goes_runOnce hcall t _ fun j hj => ?_
  cases hj
  exact .inr hi

theorem goes_runDue {call : Task → Scope → Step σ Bool} (hcall : CallGoes n table call) :
    CallGoes n table (runDue setup call) := by
  intro t outer hown
  unfold runDue
  cases t.items with
  | none => exact goes_runOnce hcall t outer hown
  | some items => exact goes_anyChanged items (goes_runItem hcall t outer)

theorem goes_runTaskWith {call : Task → Scope → Step σ Bool} (hcall : CallGoes n table call) :
    CallGoes n table (runTaskWith setup call) := by
  intro t outer hown
  rw [runTaskWith_eq]
  have hdue : Goes n table (inWorld (t.due setup outer)) :=
    .read fun w hw => hw.run_due setup t outer
  apply hdue.bind
  rintro (e | _ | _)
  · exact goes_fail t t.name "" (.expr e)
  · exact .pure false
  · exact goes_runDue hcall t outer hown

theorem goes_runTask (setup : Setup σ) (depth : Nat) : CallGoes n table (runTask setup depth) := by
  induction depth with
  | zero => exact fun _ _ _ _ _ => .deep .refl
  | succ depth ih => exact goes_runTaskWith ih

theorem goes_runPlayTask (setup : Setup σ) (t : Task) : Goes n table (runPlayTask setup t) := by
  apply Goes.getThen
  intro s hs
  refine goes_runTask setup setup.callDepth t _ (fun i hi => ?_) s hs
  cases hi
  exact .inl hs.table

theorem goes_tasks (setup : Setup σ) (ts : List Task) :
    Goes n table (anyChanged (runPlayTask setup) ts) :=
  goes_anyChanged ts (goes_runPlayTask setup)

theorem goes_runHandler (setup : Setup σ) (started : Bool) (handler : Task) :
    Goes n table (runHandler setup started handler) := by
  have hrun : Goes n table (runPlayTask setup handler >>= fun _ => pure true) :=
    (goes_runPlayTask setup handler).bind fun _ => .pure true
  apply Goes.getThen
  intro s hs
  by_cases hnotified : s.current.notified.contains handler.name
  · simp only [if_pos hnotified]
    cases started with
    | true => exact hrun s hs
    | false => exact (Goes.emit (by simp)).bind (fun _ => hrun) s hs
  · simp only [if_neg hnotified]
    exact .done started .refl

theorem goes_handlers (setup : Setup σ) (started : Bool) (handlers : List Task) :
    Goes n table (handlers.foldlM (runHandler setup) started) := by
  induction handlers generalizing started with
  | nil => exact .pure started
  | cons handler handlers ih =>
    rw [List.foldlM_cons]
    exact (goes_runHandler setup started handler).bind ih

/-- A deferred task that has settled well is reported, and notifies. -/
theorem run_await_ok {d : Deferred} {result : TaskResult}
    (h : s.world.answer? d.future = some (.ok result)) :
    (await setup d).run.run s = (.ok (), s.afterAwait d.task result) := by
  have hforce : (Future.force setup.host d.future).run s.world = (.ok result, s.world) :=
    Future.run_force_of_answer? h
  have hworld : (inWorld (Future.force setup.host d.future)).run.run s = (.ok (.ok result), s) := by
    rw [run_inWorld, hforce]
  unfold await afterAwait
  rw [run_bind_of_ok hworld]
  by_cases hchanged : result.changed
  · simp only [if_pos hchanged]
    rfl
  · simp only [if_neg hchanged]
    rfl

theorem run_await_error {d : Deferred} {e : Error}
    (h : s.world.answer? d.future = some (.error e)) :
    (await setup d).run.run s = (.error (.failed (e.inTask s.current.play.name d.name)),
      s.push (.finishTask d.task (some (TaskResult.ofFailure e.message)))) := by
  have hforce : (Future.force setup.host d.future).run s.world = (.error e, s.world) :=
    Future.run_force_of_answer? h
  have hworld : (inWorld (Future.force setup.host d.future)).run.run s = (.ok (.error e), s) := by
    rw [run_inWorld, hforce]
  unfold await
  rw [run_bind_of_ok hworld]
  rfl

end Runner

end PlaybookRunner
