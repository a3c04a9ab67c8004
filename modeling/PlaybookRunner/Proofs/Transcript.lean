import Mathlib.Data.List.Forall2
import PlaybookRunner.Run.Event

/-!
# Transcripts

The grammar of the events of a run. A turn is one report of a task: its start,
the turns of its subtasks if it calls a module, and its finish. A task has a turn
for each of its items, and one turn if its condition fails. A run that is stopped
inside module calls leaves a cut of such a sequence, with the calls still open.
-/

namespace PlaybookRunner

/-- The turns of a task at most: one for each item. -/
def Task.turns (t : Task) : List Task :=
  List.replicate (max 1 ((t.items.map List.length).getD 1)) t

namespace Play

/-- The tasks of the module that a task calls. -/
def subtasks (p : Play) (t : Task) : List Task :=
  ((p.module? t.command).map Module.tasks).getD []

/-- The turns of the tasks of the module that a task calls. -/
def subturns (p : Play) (t : Task) : List Task := (p.subtasks t).flatMap Task.turns

/-- The tasks that a play declares: its own, its handlers, and those of its modules. -/
def declared (p : Play) : List Task :=
  p.tasks ++ p.handlers ++ p.modules.flatMap fun m => m.2.tasks

/-- So many module calls lie inside each other below a task. -/
def Nests (p : Play) : Nat → Task → Prop
  | 0, _ => True
  | n + 1, t => ∃ sub ∈ p.subtasks t, p.Nests n sub

/-- So many module calls lie inside each other below some task or handler of the play. -/
def Deep (p : Play) (n : Nat) : Prop := ∃ t ∈ p.tasks ++ p.handlers, p.Nests n t

theorem subtasks_subset_declared {p : Play} {t : Task} : p.subtasks t ⊆ p.declared := by
  intro sub hsub
  unfold subtasks at hsub
  cases hm : p.module? t.command with
  | none => simp [hm] at hsub
  | some m =>
    obtain ⟨before, after, hmodules, -⟩ := List.lookup_eq_some_iff.mp hm
    have hmem : (t.command, m) ∈ p.modules := by
      rw [hmodules]
      exact List.mem_append_right _ List.mem_cons_self
    have hsub' : sub ∈ m.tasks := by simpa [hm] using hsub
    exact List.mem_append_right _ (List.mem_flatMap.mpr ⟨_, hmem, hsub'⟩)

end Play

theorem Task.mem_of_mem_turns {t : Task} {tasks : List Task} (h : t ∈ tasks.flatMap Task.turns) :
    t ∈ tasks := by
  obtain ⟨other, hother, ht⟩ := List.mem_flatMap.mp h
  rwa [List.eq_of_mem_replicate ht]

theorem Task.mem_turns (t : Task) : t ∈ t.turns :=
  List.mem_replicate.mpr ⟨Nat.ne_of_gt (Nat.le_max_left 1 _), rfl⟩

/-- Lists that correspond agree in what corresponding elements agree in. -/
theorem map_eq_map {α β γ : Type} {f : α → γ} {g : β → γ} {as : List α} {bs : List β}
    (h : List.Forall₂ (fun a b => g b = f a) as bs) : bs.map g = as.map f := by
  induction h with
  | nil => rfl
  | cons hab _ ih => rw [List.map_cons, List.map_cons, hab, ih]

theorem forall_mem_right {α β : Type} {P : β → Prop} {as : List α} {bs : List β}
    (h : List.Forall₂ (fun _ b => P b) as bs) : ∀ b ∈ bs, P b := by
  induction h with
  | nil => simp
  | cons hb _ ih => exact List.forall_mem_cons.mpr ⟨hb, ih⟩

/-- The event is the start or the finish of a task. -/
def Event.OfTask : Event → Prop
  | .startTask .. => True
  | .finishTask .. => True
  | _ => False

/-- The event announces the handlers. -/
def Event.startsHandlers : Event → Bool
  | .startHandlers => true
  | _ => false

theorem Event.OfTask.startsHandlers {e : Event} (h : e.OfTask) : e.startsHandlers = false := by
  cases e with
  | startTask | finishTask => rfl
  | _ => cases h

namespace Transcript

/-- The tasks that events dispatch without a result. -/
def dispatched (L : List Event) : List Task :=
  L.filterMap fun
    | .finishTask t none => some t
    | _ => none

/-- The handlers that events notify: those of the tasks that report a change. -/
def notices (L : List Event) : List String :=
  L.flatMap fun
    | .finishTask t (some result) => if !result.failed && result.changed then t.notify else []
    | _ => []

/-- The tasks that have started and not finished, innermost first. -/
def opened : List Event → List Task → List Task
  | [], stack => stack
  | .startTask t _ _ _ :: L, stack => opened L (t :: stack)
  | .finishTask _ _ :: L, stack => opened L stack.tail
  | _ :: L, stack => opened L stack

/-- The events open with the start of the task. -/
def Opens (t : Task) (L : List Event) : Prop :=
  ∃ name args params rest, L = .startTask t name args params :: rest

/-- The tasks that events start. -/
def started (L : List Event) : List Task :=
  L.filterMap fun
    | .startTask t _ _ _ => some t
    | _ => none

/-- How a task may finish after the reports of its subtasks: a deferred one has
no result, unless it failed before its dispatch. -/
def Finishes (t : Task) (inner : List Event) : Option TaskResult → Prop
  | none => t.isDeferred = true ∧ inner = []
  | some result => t.isDeferred = true → result.failed = true

/-- Some of the turns were taken, in order, and each of these is closed. -/
inductive Brackets (p : Play) : List Task → List Event → Prop
  | nil : Brackets p [] []
  | skip {t : Task} {turns : List Task} {L : List Event} (h : Brackets p turns L) :
      Brackets p (t :: turns) L
  | report {t : Task} {turns : List Task} {inner rest : List Event} {result : Option TaskResult}
      (name args : String) (params : Vars) (hinner : Brackets p (p.subturns t) inner)
      (hresult : Finishes t inner result) (hrest : Brackets p turns rest) :
      Brackets p (t :: turns)
        (.startTask t name args params :: (inner ++ .finishTask t result :: rest))

/-- The beginning of closed turns, with so many of them still open. -/
structure Cut (p : Play) (calls : Nat) (turns : List Task) (L : List Event) : Prop where
  completes : ∃ rest, Brackets p turns (L ++ rest)
  opened_length : ∀ stack, (opened L stack).length = calls + stack.length
  nests : ∃ t ∈ turns, p.Nests calls t

/-- The reports of awaited tasks in the order of the tasks, each with a result. -/
def Awaited (tasks : List Task) (L : List Event) : Prop :=
  List.Forall₂ (fun t e => ∃ result, e = .finishTask t (some result)) tasks L

/-- Reports of awaited tasks that changed nothing. -/
def awaitAll (tasks : List Task) : List Event :=
  tasks.map fun t => .finishTask t (some TaskResult.ok)

@[simp] theorem dispatched_nil : dispatched [] = [] := rfl

@[simp] theorem dispatched_append (A B : List Event) :
    dispatched (A ++ B) = dispatched A ++ dispatched B := List.filterMap_append

@[simp] theorem notices_nil : notices [] = [] := rfl

@[simp] theorem notices_append (A B : List Event) :
    notices (A ++ B) = notices A ++ notices B := List.flatMap_append

theorem opened_append (A B : List Event) (stack : List Task) :
    opened (A ++ B) stack = opened B (opened A stack) := by
  induction A generalizing stack with
  | nil => rfl
  | cons e A ih => cases e <;> exact ih _

namespace Brackets

variable {p : Play} {as bs turns : List Task} {A B L : List Event}

theorem nothing (turns : List Task) : Brackets p turns [] := by
  induction turns with
  | nil => exact .nil
  | cons t turns ih => exact .skip ih

theorem append (hA : Brackets p as A) (hB : Brackets p bs B) : Brackets p (as ++ bs) (A ++ B) := by
  induction hA with
  | nil => exact hB
  | skip _ ih => exact .skip ih
  | report name args params hinner hresult _ _ ih =>
    simpa using Brackets.report name args params hinner hresult ih

theorem append_turns (h : Brackets p as A) (bs : List Task) : Brackets p (as ++ bs) A := by
  simpa using h.append (.nothing bs)

theorem single {t : Task} {inner : List Event} {result : Option TaskResult} (name args : String)
    (params : Vars) (hinner : Brackets p (p.subturns t) inner) (hresult : Finishes t inner result) :
    Brackets p [t] (.startTask t name args params :: (inner ++ [.finishTask t result])) :=
  .report name args params hinner hresult .nil

theorem opened_eq (h : Brackets p turns L) (stack : List Task) : opened L stack = stack := by
  induction h generalizing stack with
  | nil => rfl
  | skip _ ih => exact ih stack
  | report name args params _ _ _ ih ih' =>
    change opened _ (_ :: stack) = stack
    rw [opened_append, ih]
    exact ih' stack

theorem ofTask (h : Brackets p turns L) : ∀ e ∈ L, e.OfTask := by
  induction h with
  | nil => simp
  | skip _ ih => exact ih
  | report name args params _ _ _ ih ih' =>
    refine List.forall_mem_cons.mpr ⟨trivial, List.forall_mem_append.mpr ⟨ih, ?_⟩⟩
    exact List.forall_mem_cons.mpr ⟨trivial, ih'⟩

end Brackets

theorem Opens.append {t : Task} {A : List Event} (h : Opens t A) (B : List Event) :
    Opens t (A ++ B) := by
  obtain ⟨name, args, params, rest, rfl⟩ := h
  exact ⟨name, args, params, rest ++ B, rfl⟩

namespace Cut

variable {p : Play} {n : Nat} {t : Task} {as bs : List Task} {A B inner : List Event}

theorem start (ht : t ∈ as) : Cut p 0 as [] :=
  ⟨⟨[], .nothing as⟩, fun stack => by simp [opened], t, ht, trivial⟩

theorem append_turns (h : Cut p n as A) (bs : List Task) : Cut p n (as ++ bs) A := by
  obtain ⟨⟨rest, hrest⟩, hopened, t, ht, hnests⟩ := h
  exact ⟨⟨rest, hrest.append_turns bs⟩, hopened, t, List.mem_append_left bs ht, hnests⟩

theorem after (hA : Brackets p as A) (h : Cut p n bs B) : Cut p n (as ++ bs) (A ++ B) := by
  obtain ⟨⟨rest, hrest⟩, hopened, t, ht, hnests⟩ := h
  refine ⟨⟨rest, by simpa using hA.append hrest⟩, fun stack => ?_,
    t, List.mem_append_right as ht, hnests⟩
  rw [opened_append, hA.opened_eq, hopened]

/-- A cut inside the call of a module leaves that call open as well. -/
theorem inCall (ht : t.isDeferred = false) (name args : String) (params : Vars)
    (h : Cut p n (p.subturns t) inner) :
    Cut p (n + 1) [t] (.startTask t name args params :: inner) := by
  obtain ⟨⟨rest, hrest⟩, hopened, sub, hsub, hnests⟩ := h
  have hfinishes : Finishes t (inner ++ rest) (some .ok) := by simp [Finishes, ht]
  refine ⟨⟨rest ++ [.finishTask t (some .ok)], ?_⟩, fun stack => ?_,
    t, List.mem_singleton_self t, sub, Task.mem_of_mem_turns hsub, hnests⟩
  · simpa using Brackets.single name args params hrest hfinishes
  · change (opened inner (t :: stack)).length = _
    rw [hopened, List.length_cons]
    omega

end Cut

namespace Awaited

variable {tasks : List Task} {L : List Event}

theorem awaitAll (tasks : List Task) : Awaited tasks (awaitAll tasks) := by
  unfold Awaited Transcript.awaitAll
  rw [List.forall₂_map_right_iff]
  exact List.forall₂_same.mpr fun t _ => ⟨_, rfl⟩

theorem cons {t : Task} (result : TaskResult) (h : Awaited tasks L) :
    Awaited (t :: tasks) (.finishTask t (some result) :: L) := List.Forall₂.cons ⟨result, rfl⟩ h

theorem ofTask (h : Awaited tasks L) : ∀ e ∈ L, e.OfTask := by
  induction h with
  | nil => simp
  | cons he _ ih =>
    obtain ⟨result, rfl⟩ := he
    exact List.forall_mem_cons.mpr ⟨trivial, ih⟩

end Awaited

end Transcript

/-- The reports of one play: of its tasks, of the tasks it deferred, of its
handlers, and of what its handlers deferred. -/
structure PlayLog where
  play : Play
  tasks : List Event
  drained : List Event
  handlers : List Event
  late : List Event

namespace PlayLog

open Transcript

/-- The tasks and handlers of the play report in closed turns, and what they
deferred reports once each in the order of dispatch. -/
structure Sound (log : PlayLog) : Prop where
  tasks : Brackets log.play (log.play.tasks.flatMap Task.turns) log.tasks
  drained : Awaited (dispatched log.tasks) log.drained
  handlers : Brackets log.play (log.play.handlers.flatMap Task.turns) log.handlers
  late : Awaited (dispatched log.handlers) log.late

/-- The events up to the end of the awaiting. -/
def mainPart (logs : List PlayLog) : List Event :=
  .startTasks :: logs.flatMap tasks ++ .finishTasks :: logs.flatMap drained

/-- The events of the handlers, play by play. -/
def handlerPart (logs : List PlayLog) : List Event :=
  logs.flatMap fun log => log.handlers ++ log.late

/-- The events of plays that ran to their end. -/
inductive Complete (plays : List Play) : List Event → Prop
  | plain {logs : List PlayLog} (hplays : logs.map play = plays) (hsound : ∀ log ∈ logs, log.Sound)
      (hquiet : handlerPart logs = []) : Complete plays (mainPart logs ++ [.finishAll])
  | handled {logs : List PlayLog} (hplays : logs.map play = plays)
      (hsound : ∀ log ∈ logs, log.Sound) :
      Complete plays (mainPart logs ++
        .startHandlers :: (handlerPart logs ++ [.finishHandlers, .finishAll]))

end PlayLog

end PlaybookRunner
