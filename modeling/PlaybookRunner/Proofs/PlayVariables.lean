import PlaybookRunner.Proofs.Accounts
import PlaybookRunner.Proofs.DeferredFacts
import PlaybookRunner.Proofs.SideBySide

/-!
# What module calls and loops leave of the variables

A module call and each turn of a loop run in a table of their own, and so does all that is
called in them. Facts go to these tables, whatever commands bind them and however deep.
Only what is registered goes to the table of the play.
-/

namespace PlaybookRunner

variable {σ : Type} {host : Host σ} {K : String → Prop} {own : Nat → Prop} {w v u : World σ}

/-- The names of the facts that a job may bind, also through the jobs that it registers. -/
def Job.factNames : Job → List String
  | .command c _ _ => c.facts.map Prod.fst
  | .register _ _ later => later.factNames
  | _ => []

/-- All facts that the job may bind have such names. -/
def Job.Within (K : String → Prop) (job : Job) : Prop := ∀ key ∈ job.factNames, K key

namespace World

/-- A pending job may bind the name. -/
def Awaits (w : World σ) (key : String) : Prop :=
  ∃ (i : Nat) (f : Future) (job : Job), w.futures[i]? = some f ∧ f.progress = .pending job ∧
    key ∈ job.factNames

theorem within_awaits (w : World σ) : w.AllPending (Job.Within w.Awaits) :=
  fun i f job hf hjob _ hkey => ⟨i, f, job, hf, hjob, hkey⟩

/-- The variables of the tables there were are the same, those of owned tables and those
that pending jobs may bind apart. -/
structure Shields (K : String → Prop) (own : Nat → Prop) (w v : World σ) : Prop where
  pending : v.AllPending (Job.Within K)
  size_le : w.tables.size ≤ v.tables.size
  vars : ∀ i < w.tables.size, ¬ own i → ∀ key, ¬ K key →
    (v.table i).vars.get? key = (w.table i).vars.get? key

namespace Shields

theorem refl (h : w.AllPending (Job.Within K)) : w.Shields K own w :=
  ⟨h, Nat.le_refl _, fun _ _ _ _ _ => rfl⟩

theorem trans (h : w.Shields K own v) (h' : v.Shields K own u) : w.Shields K own u where
  pending := h'.pending
  size_le := Nat.le_trans h.size_le h'.size_le
  vars i hi hown key hkey :=
    (h'.vars i (Nat.lt_of_lt_of_le hi h.size_le) hown key hkey).trans (h.vars i hi hown key hkey)

theorem of_tables (h : w.Shields K own v) (htables : u.tables = v.tables)
    (hpending : u.AllPending (Job.Within K)) : w.Shields K own u where
  pending := hpending
  size_le := htables ▸ h.size_le
  vars i hi hown key hkey := by
    have htable : u.table i = v.table i := table_congr (congrArg (·[i]?) htables)
    rw [htable]
    exact h.vars i hi hown key hkey

theorem newTable (h : w.Shields K own v) (vars : Vars) : w.Shields K own (v.newTable vars).2 where
  pending := h.pending.of_futures rfl
  size_le := Nat.le_trans h.size_le (writes_newTable vars v).size_le
  vars i hi hown key hkey := by
    rw [table_newTable_of_lt (Nat.lt_of_lt_of_le hi h.size_le)]
    exact h.vars i hi hown key hkey

theorem addFuture (h : w.Shields K own v) {job : Job} (hjob : job.Within K) (table : Nat)
    (name : String) : w.Shields K own (v.addFuture table name job).2 where
  pending := h.pending.addFuture hjob table name
  size_le := Nat.le_trans h.size_le (Nat.le_of_eq (size_modifyTable ..).symm)
  vars i hi hown key hkey := by
    rw [vars_addFuture]
    exact h.vars i hi hown key hkey

/-- A variable is bound in an owned table, or under a name that pending jobs may bind. -/
theorem set (h : w.Shields K own v) {scope : Scope} {key : String}
    (hset : (∀ i, scope.owner? = some i → own i) ∨ K key) (value : Value) :
    w.Shields K own (v.set scope key value) := by
  unfold World.set
  cases hscope : scope.owner? with
  | none => exact h
  | some j =>
    refine ⟨h.pending.of_futures rfl, ?_, fun i hi hown other hother => ?_⟩
    · exact Nat.le_trans h.size_le (Nat.le_of_eq (size_modifyTable ..).symm)
    · rw [← h.vars i hi hown other hother]
      by_cases hij : j = i
      · subst hij
        have hne : other ≠ key := by
          rintro rfl
          rcases hset with howned | hkey
          · exact hown (howned j hscope)
          · exact hother hkey
        rw [table_modifyTable_self (Nat.lt_of_lt_of_le hi h.size_le)]
        exact Dict.get?_put_of_ne _ _ hne
      · rw [table_modifyTable_of_ne hij]

theorem extend (h : w.Shields K own v) {scope : Scope} {facts : Vars}
    (hfacts : (∀ i, scope.owner? = some i → own i) ∨ ∀ fact ∈ facts, K fact.1) :
    w.Shields K own (v.extend scope facts) := by
  unfold World.extend
  induction facts generalizing v with
  | nil => exact h
  | cons fact rest ih =>
    rw [List.foldl_cons]
    have hfirst := hfacts.imp_right fun hall => hall fact List.mem_cons_self
    have hrest := hfacts.imp_right fun hall f hf => hall f (List.mem_cons_of_mem _ hf)
    exact ih (h.set hfirst fact.2) hrest

/-- Forcing a future binds what its job, and those that it comes to force, may bind. -/
theorem kept (K : String → Prop) (own : Nat → Prop) (w : World σ) :
    KeptByPending (w.Shields K own) (Job.Within K) where
  pending h := h.pending
  progress h htables hpending := h.of_tables htables hpending
  facts hjob h :=
    h.extend (.inr fun fact hfact => hjob fact.1 (List.mem_map_of_mem hfact))
  register {_ _ _ later} hjob h := by
    have hlater : later.Within K := hjob
    exact h.addFuture hlater _ _

/-- So does a command, which may besides bind facts in the owned tables. -/
theorem agree_run (w : World σ) {scope : Scope} (hown : ∀ i, scope.owner? = some i → own i)
    (command : Command) (t : Task) :
    Agree (w.Shields K own) (command.run host scope t) (command.run host scope t) :=
  Command.agree_runWith_of_facts (kept K own w).setHost (kept K own w).agree_force
    (fun _ hv => hv.extend (.inl hown)) t

end Shields

end World

namespace RunState

/-- The tables below a bound keep their variables, apart from what pending jobs may bind and
from what the reported tasks register in the table of the play. -/
structure Confines (K : String → Prop) (n : Nat) (s : RunState σ) (L : List Event)
    (v : RunState σ) : Prop where
  events : v.events.toList = s.events.toList ++ L
  play : v.current.play = s.current.play
  table : v.current.table = s.current.table
  pending : v.world.AllPending (Job.Within K)
  size_le : n ≤ v.world.tables.size
  vars : ∀ i < n, ∀ key, ¬ K key →
    (i = s.current.table → ∀ e ∈ Transcript.reported L, e.1.register ≠ some key) →
    (v.world.table i).vars.get? key = (s.world.table i).vars.get? key

open World

variable {n : Nat} {s v : RunState σ} {L : List Event}

namespace Confines

theorem refl (hpending : s.world.AllPending (Job.Within K)) (hsize : n ≤ s.world.tables.size) :
    s.Confines K n [] s := ⟨by simp, rfl, rfl, hpending, hsize, fun _ _ _ _ _ => rfl⟩

theorem work (h : s.Confines K n L v) {w : World σ} (hw : v.world.Shields K (n ≤ ·) w) :
    s.Confines K n L { v with world := w } where
  events := h.events
  play := h.play
  table := h.table
  pending := hw.pending
  size_le := Nat.le_trans h.size_le hw.size_le
  vars i hi key hkey hregister := by
    rw [← h.vars i hi key hkey hregister]
    exact hw.vars i (Nat.lt_of_lt_of_le hi h.size_le) (Nat.not_le.mpr hi) key hkey

theorem push (h : s.Confines K n L v) (e : Event) : s.Confines K n (L ++ [e]) (v.push e) where
  events := by
    change (v.events.push e).toList = _
    rw [Array.toList_push, h.events, List.append_assoc]
  play := h.play
  table := h.table
  pending := h.pending
  size_le := h.size_le
  vars i hi key hkey hregister := by
    refine h.vars i hi key hkey fun htable e he => hregister htable e ?_
    rw [Transcript.reported_append]
    exact List.mem_append_left _ he

/-- The rest of a play's state plays no part. -/
theorem of_current (h : s.Confines K n L v) {c : PlayState} (hplay : c.play = v.current.play)
    (htable : c.table = v.current.table) : s.Confines K n L { v with current := c } :=
  ⟨h.events, hplay.trans h.play, htable.trans h.table, h.pending, h.size_le, h.vars⟩

/-- A registered result is bound in the table of the play. -/
theorem register (h : s.Confines K n L v) (t : Task) (result : TaskResult) {name : String}
    (hname : t.register = some name) (value : Value) :
    s.Confines K n (L ++ [.finishTask t (some result)])
      (({ v with world := v.world.set [.table v.current.table] name value } : RunState σ).push
        (.finishTask t (some result))) where
  events := (h.push _).events
  play := h.play
  table := h.table
  pending := h.pending.of_futures (futures_set ..)
  size_le := Nat.le_trans h.size_le (Nat.le_of_eq (size_modifyTable ..).symm)
  vars i hi key hkey hregister := by
    rw [Transcript.reported_append] at hregister
    rw [← h.vars i hi key hkey fun htable e he => hregister htable e (List.mem_append_left _ he)]
    change ((v.world.modifyTable v.current.table _).table i).vars.get? key = _
    by_cases htable : v.current.table = i
    · have hne : key ≠ name := by
        rintro rfl
        exact hregister (htable.symm.trans h.table) (t, result)
          (List.mem_append_right _ (List.mem_singleton_self _)) hname
      rw [htable, table_modifyTable_self (Nat.lt_of_lt_of_le hi h.size_le)]
      exact Dict.get?_put_of_ne _ _ hne
    · rw [table_modifyTable_of_ne htable]

theorem report {t : Task} {result : TaskResult}
    (h : s.Confines K n L (v.push (.finishTask t (some result)))) :
    s.Confines K n L (v.report t result) := by
  have hrecord := h.work (World.Shields.refl h.pending |>.of_tables
    (u := v.world.record t result) rfl (h.pending.of_futures rfl))
  unfold RunState.report
  by_cases hnotify : !result.failed && result.changed
  · simp only [if_pos hnotify]
    exact hrecord.of_current (c := v.current.notify t) rfl rfl
  · simp only [if_neg hnotify]
    exact hrecord

theorem completion (h : s.Confines K n L v) (t : Task) (result : TaskResult) :
    s.Confines K n (L ++ [.finishTask t (some result)]) (v.afterCompletion t result) := by
  unfold afterCompletion
  cases hname : t.register with
  | none => exact (h.push _).report
  | some name => exact (h.register t result hname _).report

end Confines

/-- A dispatched job is running when it starts. -/
theorem shields_deferring {own : Nat → Prop} (hpending : s.world.AllPending (Job.Within K))
    (future : String) (job : Job) : s.world.Shields K own (s.deferring future job) where
  pending := by
    intro i f later hf hlater
    rw [futures_deferring, Array.getElem?_push] at hf
    split at hf
    · cases hf
      cases hlater
    · exact hpending i f later hf hlater
  size_le := Nat.le_of_eq (size_modifyTable ..).symm
  vars i _ _ key _ := congrArg (Dict.get? · key) (vars_addFuture ..)

theorem Confines.dispatching {host : Host σ} (h : s.Confines K n L v) (t : Task)
    (name future : String) (command : Command) {scope : Scope}
    (hown : ∀ i, scope.owner? = some i → n ≤ i) :
    s.Confines K n (L ++ [.finishTask t none]) (v.afterDispatch t name
      ((command.run host scope t).run (v.deferring future (.command command scope t)))) := by
  have hagree : Agree (v.world.Shields K (n ≤ ·)) (command.run host scope t)
    (command.run host scope t) := World.Shields.agree_run v.world hown command t
  have hran := hagree.keeps (shields_deferring h.pending future (.command command scope t))
  generalize (command.run host scope t).run (v.deferring future (.command command scope t)) =
    done at hran
  have hsettled := hran.of_tables (u := (v.afterDispatch t name done).world) rfl
    ((hran.pending.of_futures (v := done.2.record t (Command.resultOf done.1)) rfl).setProgress
      v.world.futures.size (Progress.ofOutcome_ne_pending _))
  exact ((h.work hsettled).push (.finishTask t none)).of_current rfl rfl

end RunState

namespace Runner

open Step RunState World

variable {setup : Setup σ} {s : RunState σ} {n : Nat}

/-- The state is confined, and it is the one state of both sides. -/
abbrev Confined (K : String → Prop) (n : Nat) (s v v' : RunState σ) : Prop :=
  v = v' ∧ ∃ L, s.Confines K n L v

theorem related_confined {α : Type} {K : String → Prop} {v : RunState σ} {z : RunM σ α}
    (hz : ∀ w : World σ, Agree (w.Shields K (n ≤ ·)) z z) :
    Related (Around (Confined K n s) v v) z z := by
  rintro w w' ⟨heq, L, hw⟩
  obtain rfl : w = w' := congrArg RunState.world heq
  exact ⟨rfl, rfl, L, hw.work ((hz w).keeps (.refl hw.pending))⟩

/-- All that tasks do in scopes beyond the bound is confined. -/
theorem kept_confined (setup : Setup σ) (K : String → Prop) (n : Nat) (s : RunState σ) :
    KeptBySteps setup (n ≤ ·) Eq (Confined K n s) := by
  constructor
  case items =>
    rintro t _ rfl
    exact ⟨t.items, rfl⟩
  case refl => exact fun _ => rfl
  case play =>
    rintro v _ ⟨rfl, -⟩
    rfl
  case size =>
    rintro v _ ⟨rfl, L, h⟩
    exact ⟨rfl, h.size_le⟩
  case reading =>
    rintro v _ ⟨rfl, -⟩ scope key
    exact related_confined fun w => (World.Shields.kept K (n ≤ ·) w).agree_read scope key
  case opening =>
    rintro v _ ⟨rfl, L, h⟩ vars
    exact ⟨rfl, L, h.work ((World.Shields.refl h.pending).newTable vars)⟩
  case start =>
    rintro v _ t _ ⟨rfl, L, h⟩ rfl name args params
    exact ⟨rfl, _, h.push _⟩
  case finish =>
    rintro v _ t _ ⟨rfl, L, h⟩ rfl result
    exact ⟨rfl, _, h.push _⟩
  case completion =>
    rintro v _ t _ ⟨rfl, L, h⟩ rfl result
    exact ⟨rfl, _, h.completion t result⟩
  case running =>
    rintro v _ t _ scope params command ⟨rfl, -⟩ rfl hown -
    exact related_confined fun w => World.Shields.agree_run w hown command t
  case dispatching =>
    rintro v _ t _ scope params command ⟨rfl, L, h⟩ rfl hown - name future
    exact ⟨rfl, _, h.dispatching t name future command hown⟩

/-- Tasks that name a module or have items are confined wherever they run. -/
theorem confines_runTask (setup : Setup σ) (depth : Nat) {t : Task} (outer : Scope)
    (ht : (s.current.play.module? t.command).isSome ∨ t.items.isSome) :
    ∃ L, s.Confines s.world.Awaits s.world.tables.size L
      ((runTask setup depth t outer).run.run s).2 := by
  have hrefl := Confines.refl s.world.within_awaits (Nat.le_refl _)
  have hkept := kept_confined setup s.world.Awaits s.world.tables.size s
  suffices hrelated : Related (Confined s.world.Awaits s.world.tables.size s)
      (runTask setup depth t outer).run (runTask setup depth t outer).run from
    (hrelated s s ⟨rfl, [], hrefl⟩).2.2
  apply hkept.related_runTask depth
  -- Only a command that runs once may bind facts in the outer scope.
  rintro hitems v _ ⟨rfl, L, h⟩ hmodule
  rw [h.play] at hmodule
  rw [hitems, hmodule] at ht
  exact absurd ht (by simp)

/-- A module binds a fact for each item under a name of the play, and registers results. -/
def shadowing : RunState Unit where
  world := { tables := #[{}, { vars := [("x", .int 0)] }], host := () }
  current := {
    play := {
      name := "p"
      modules := [("m", {
        name := "m"
        tasks := [{ name := "t", command := "set_fact", vars := [("x", .string "{{ item }}")],
                    register := some "seen" }] })] }
    table := 1 }

def shadowingCall : Task :=
  { name := "c", command := "m", args := "x=1", items := some [.int 2, .int 3] }

end Runner

end PlaybookRunner
