import PlaybookRunner.Proofs.RunEvents

/-!
# The ledger of a run

Every start of a task opens an invocation of it, and every finish belongs to one: to
the innermost that is open or, when none is, to the one that has been waiting longest
since its dispatch. In the events of a run the task that finishes is always the task
of the invocation that the ledger names.
-/

namespace PlaybookRunner

open Transcript

/-- One start of a task, and the result it has come to. -/
structure Invocation where
  task : Task
  name : String
  args : String
  params : Vars
  result : Option TaskResult := none

/-- The invocations in the order of their starts. Those without a result are open,
innermost first, or wait for their result since their dispatch, longest first. -/
structure Ledger where
  invocations : List Invocation := []
  opened : List (Task × Nat) := []
  waiting : List (Task × Nat) := []

namespace Ledger

variable {g g' : Ledger} {p : Play} {A B L : List Event} {os ws : List (Task × Nat)}

def start (g : Ledger) (v : Invocation) : Ledger :=
  { g with
    invocations := g.invocations ++ [v], opened := (v.task, g.invocations.length) :: g.opened }

/-- The innermost open invocation is dispatched. -/
def dispatch (g : Ledger) : Ledger :=
  match g.opened with
  | [] => g
  | a :: rest => { g with opened := rest, waiting := g.waiting ++ [a] }

def settle (g : Ledger) (place : Nat) (result : TaskResult) : Ledger :=
  { g with invocations := g.invocations.modify place fun v => { v with result := some result } }

/-- The innermost open invocation finishes, or the one that has been waiting longest. -/
def finish (g : Ledger) (result : TaskResult) : Ledger :=
  match g.opened, g.waiting with
  | a :: rest, _ => { g.settle a.2 result with opened := rest }
  | [], a :: rest => { g.settle a.2 result with waiting := rest }
  | [], [] => g

/-- The ledger after an event. -/
def step (g : Ledger) : Event → Ledger
  | .startTasks => {}
  | .startTask task name args params => g.start { task, name, args, params }
  | .finishTask _ none => g.dispatch
  | .finishTask _ (some result) => g.finish result
  | _ => g

def run (g : Ledger) (L : List Event) : Ledger := L.foldl step g

/-- The task that finishes is the task of the invocation that the ledger names, and
only deferred tasks are dispatched. -/
def Fits (g : Ledger) : Event → Prop
  | .finishTask t none => t.isDeferred = true ∧ ∃ i rest, g.opened = (t, i) :: rest
  | .finishTask t (some _) =>
    (∃ i rest, g.opened = (t, i) :: rest) ∨ g.opened = [] ∧ ∃ i rest, g.waiting = (t, i) :: rest
  | _ => True

/-- Event by event the ledger fits. -/
def Keeps : Ledger → List Event → Prop
  | _, [] => True
  | g, e :: L => g.Fits e ∧ (g.step e).Keeps L

/-- The ledger fits the events, and so it is left. -/
structure Leaves (g : Ledger) (L : List Event) (os ws : List (Task × Nat)) : Prop where
  keeps : g.Keeps L
  opened : (g.run L).opened = os
  waiting : (g.run L).waiting = ws

theorem keeps_append : g.Keeps (A ++ B) ↔ g.Keeps A ∧ (g.run A).Keeps B := by
  induction A generalizing g with
  | nil => exact (iff_of_eq (true_and _)).symm
  | cons e A ih => exact (and_congr_right fun _ => ih).trans and_assoc.symm

theorem finish_of_opened {a : Task × Nat} {rest : List (Task × Nat)} (h : g.opened = a :: rest)
    (result : TaskResult) : g.finish result = { g.settle a.2 result with opened := rest } := by
  rw [finish, h]

theorem finish_of_waiting {a : Task × Nat} {rest : List (Task × Nat)} (hopened : g.opened = [])
    (h : g.waiting = a :: rest) (result : TaskResult) :
    g.finish result = { g.settle a.2 result with waiting := rest } := by
  rw [finish, hopened, h]

namespace Leaves

theorem nil (g : Ledger) : g.Leaves [] g.opened g.waiting := ⟨trivial, rfl, rfl⟩

theorem cons {e : Event} (he : g.Fits e) (hL : (g.step e).Leaves L os ws) :
    g.Leaves (e :: L) os ws := ⟨⟨he, hL.keeps⟩, hL.opened, hL.waiting⟩

theorem append {os' ws' : List (Task × Nat)} (hA : g.Leaves A os ws)
    (hB : (g.run A).Leaves B os' ws') : g.Leaves (A ++ B) os' ws' := by
  have hrun : g.run (A ++ B) = (g.run A).run B := List.foldl_append
  exact ⟨keeps_append.mpr ⟨hA.keeps, hB.keeps⟩, hrun ▸ hB.opened, hrun ▸ hB.waiting⟩

end Leaves

/-- Closed turns leave open what was open, and what they have dispatched waits. -/
theorem leaves_of_brackets {turns : List Task} (h : Brackets p turns L) (g : Ledger) :
    ∃ ws, ws.map Prod.fst = dispatched L ∧ g.Leaves L g.opened (g.waiting ++ ws) := by
  induction h generalizing g with
  | nil => exact ⟨[], rfl, by simpa using Leaves.nil g⟩
  | skip _ ih => exact ih g
  | @report t turns inner rest result name args params _ hresult _ ihinner ihrest =>
    let started := g.start { task := t, name, args, params }
    obtain ⟨ws, hws, hinner⟩ := ihinner started
    have hopened : (started.run inner).opened = (t, g.invocations.length) :: g.opened :=
      hinner.opened
    cases result with
    | none =>
      -- Nothing lies inside a dispatched task, so it is the innermost open one.
      obtain ⟨hdeferred, rfl⟩ := hresult
      obtain ⟨ws', hws', hrest⟩ := ihrest started.dispatch
      refine ⟨(t, g.invocations.length) :: ws', by rw [List.map_cons, hws']; rfl, ?_⟩
      refine .cons trivial (.cons ⟨hdeferred, _, _, rfl⟩ ?_)
      rw [List.append_cons]
      exact hrest
    | some result =>
      -- What was dispatched inside waits, and the task itself is open again.
      obtain ⟨ws', hws', hrest⟩ := ihrest ((started.run inner).finish result)
      have hfinish : g.opened = ((started.run inner).finish result).opened ∧
          g.waiting ++ ws = ((started.run inner).finish result).waiting := by
        rw [finish_of_opened hopened]
        exact ⟨rfl, hinner.waiting.symm⟩
      refine ⟨ws ++ ws', ?_, .cons trivial (hinner.append (.cons (.inl ⟨_, _, hopened⟩) ?_))⟩
      · have hcons : dispatched (.startTask t name args params ::
            (inner ++ .finishTask t (some result) :: rest)) = dispatched (inner ++ rest) := by
          simp [dispatched]
        rw [hcons, dispatched_append, List.map_append, hws, hws']
      · rw [← List.append_assoc, hfinish.2]
        nth_rewrite 1 [hfinish.1]
        exact hrest

/-- The reports of awaited tasks settle what has been waiting longest. -/
theorem leaves_of_awaited {tasks : List Task} (h : Awaited tasks L) {ws' : List (Task × Nat)}
    (hopened : g.opened = []) (hwaiting : g.waiting = ws ++ ws') (hws : ws.map Prod.fst = tasks) :
    g.Leaves L [] ws' := by
  induction h generalizing g ws with
  | nil =>
    obtain rfl := List.map_eq_nil_iff.mp hws
    exact ⟨trivial, hopened, hwaiting⟩
  | @cons t e tasks L he _ ih =>
    obtain ⟨result, rfl⟩ := he
    obtain ⟨⟨_, i⟩, ws, rfl, rfl, rfl⟩ := List.map_eq_cons_iff.mp hws
    have hfinish := finish_of_waiting hopened hwaiting result
    refine .cons (.inr ⟨hopened, i, ws ++ ws', hwaiting⟩) (ih ?_ ?_ rfl)
    · exact (congrArg Ledger.opened hfinish).trans hopened
    · exact congrArg Ledger.waiting hfinish

variable {logs : List PlayLog}

theorem leaves_tasks (h : ∀ log ∈ logs, log.Sound) (g : Ledger) :
    ∃ ws, ws.map Prod.fst = logs.flatMap (fun log => dispatched log.tasks) ∧
      g.Leaves (logs.flatMap PlayLog.tasks) g.opened (g.waiting ++ ws) := by
  induction logs generalizing g with
  | nil => exact ⟨[], rfl, by simpa using Leaves.nil g⟩
  | cons log logs ih =>
    obtain ⟨hlog, hlogs⟩ := List.forall_mem_cons.mp h
    obtain ⟨ws, hws, hfirst⟩ := leaves_of_brackets hlog.tasks g
    obtain ⟨ws', hws', hrest⟩ := ih hlogs (g.run log.tasks)
    refine ⟨ws ++ ws', by rw [List.map_append, hws, hws', List.flatMap_cons], ?_⟩
    rw [hfirst.opened, hfirst.waiting, List.append_assoc] at hrest
    exact hfirst.append hrest

theorem awaited_drained (h : ∀ log ∈ logs, log.Sound) :
    Awaited (logs.flatMap fun log => dispatched log.tasks) (logs.flatMap PlayLog.drained) := by
  induction logs with
  | nil => exact .nil
  | cons log logs ih =>
    obtain ⟨hlog, hlogs⟩ := List.forall_mem_cons.mp h
    exact List.rel_append hlog.drained (ih hlogs)

theorem leaves_mainPart (h : ∀ log ∈ logs, log.Sound) (g : Ledger) :
    g.Leaves (PlayLog.mainPart logs) [] [] := by
  obtain ⟨ws, hws, htasks⟩ := leaves_tasks h {}
  refine .cons trivial (htasks.append (.cons trivial ?_))
  exact leaves_of_awaited (awaited_drained h) htasks.opened
    (htasks.waiting.trans (List.append_nil _).symm) hws

theorem leaves_handlerPart (h : ∀ log ∈ logs, log.Sound) (hopened : g.opened = [])
    (hwaiting : g.waiting = []) : g.Leaves (PlayLog.handlerPart logs) [] [] := by
  induction logs generalizing g with
  | nil => exact ⟨trivial, hopened, hwaiting⟩
  | cons log logs ih =>
    obtain ⟨hlog, hlogs⟩ := List.forall_mem_cons.mp h
    obtain ⟨ws, hws, hhandlers⟩ := leaves_of_brackets hlog.handlers g
    rw [hopened, hwaiting, List.nil_append] at hhandlers
    have hlate : (g.run log.handlers).Leaves log.late [] [] :=
      leaves_of_awaited hlog.late hhandlers.opened
        (hhandlers.waiting.trans (List.append_nil _).symm) hws
    have hplay : g.Leaves (log.handlers ++ log.late) [] [] := hhandlers.append hlate
    exact hplay.append (ih hlogs hplay.opened hplay.waiting)

/-- The events of a whole run fit the ledger, and nothing is left open or waiting. -/
theorem leaves_of_complete {plays : List Play} (h : PlayLog.Complete plays L) (g : Ledger) :
    g.Leaves L [] [] := by
  have hmark {e : Event} {g : Ledger} (hfits : g.Fits e) (hstep : g.step e = g)
      (hopened : g.opened = []) (hwaiting : g.waiting = []) : g.Leaves [e] [] [] :=
    .cons hfits (hstep.symm ▸ ⟨trivial, hopened, hwaiting⟩)
  cases h with
  | @plain logs _ hsound _ =>
    have hmain := leaves_mainPart hsound g
    exact hmain.append (hmark trivial rfl hmain.opened hmain.waiting)
  | @handled logs _ hsound =>
    have hmain := leaves_mainPart hsound g
    have hstart := hmark (e := .startHandlers) trivial rfl hmain.opened hmain.waiting
    have hhandlers := leaves_handlerPart hsound hstart.opened hstart.waiting
    have hfinish := hmark (e := .finishHandlers) trivial rfl hhandlers.opened hhandlers.waiting
    have hend := hmark (e := .finishAll) trivial rfl hfinish.opened hfinish.waiting
    exact hmain.append (hstart.append (hhandlers.append (hfinish.append hend)))

end Ledger

end PlaybookRunner
