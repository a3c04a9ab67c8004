import PlaybookRunner.Proofs.Phases

/-!
# Failing runs

Once a task has failed, a run reports nothing but the failures of the module calls
around it, innermost first, and its end. What a part reports up to its outcome is
closed under sequencing; a module call passes a failure of its tasks on, and so does
every phase.
-/

namespace PlaybookRunner

variable {σ α β : Type} {host : Host σ} {p : Play} {plays : List Play}

open Transcript

/-- The event closes the handlers or the run. -/
def Event.Closes : Event → Prop
  | finishHandlers | finishAll | ended _ => True
  | _ => False

/-- The error carries the task in which it arose. -/
def Error.InTask (e : Error) : Prop := ∀ play name, e.inTask play name = e

theorem Error.inTask_inTask (e : Error) (play name : String) : (e.inTask play name).InTask := by
  cases e <;> exact fun _ _ => rfl

namespace Transcript

/-- A deferred task finishes as soon as it has started. -/
def Prompt : List Event → Prop
  | [] => True
  | .startTask t _ _ _ :: L =>
    (t.isDeferred = true → ∃ result rest, L = .finishTask t result :: rest) ∧ Prompt L
  | _ :: L => Prompt L

/-- No task has reported that it failed. -/
def Unfailing (L : List Event) : Prop :=
  ∀ t result, .finishTask t (some result) ∈ L → result.failed = false

/-- The report of a task that failed and those of the module calls around it,
innermost first. -/
def unwinding (t : Task) (result : TaskResult) (calls : List Task) (e : Error) : List Event :=
  .finishTask t (some result) ::
    calls.map fun call => .finishTask call (some (TaskResult.ofFailure e.message))

/-- The task is open inside calls of modules of the play. -/
def OpenIn (p : Play) (before : List Event) (t : Task) (calls : List Task) : Prop :=
  (∀ stack, opened before stack = t :: (calls ++ stack)) ∧
    ∀ call ∈ calls, (p.module? call.command).isSome = true

/-- Where a run may fail: in a task that is open inside module calls of its play, or
in a deferred task that is awaited after its dispatch. -/
inductive FailsAt (plays : List Play) (before : List Event) : Task → List Task → Prop
  | running {p : Play} {t : Task} {calls : List Task} (hp : p ∈ plays)
      (hopened : opened before [] = t :: calls)
      (hcalls : ∀ call ∈ calls, (p.module? call.command).isSome = true) :
      FailsAt plays before t calls
  | awaited {t : Task} (hclosed : opened before [] = []) (ht : t ∈ dispatched before) :
      FailsAt plays before t []

/-- Nothing has failed, nothing is open, and the run goes on. -/
structure Calm (host : Host σ) (L : List Event) : Prop where
  prompt : Prompt L
  closed : opened L [] = []
  unclosed : ∀ e ∈ L, ¬ e.Closes
  unfailing : host.Honest → Unfailing L

/-- Nothing has failed, and every task that has started has finished, whatever else
is open. -/
structure Smooth (host : Host σ) (L : List Event) : Prop extends Calm host L where
  balanced : ∀ stack, opened L stack = stack

/-- The events end with the reports of one failure, which is the first. -/
structure Unwinds (host : Host σ) (At : List Event → Task → List Task → Prop) (e : Error)
    (L : List Event) : Prop where
  inTask : e.InTask
  unwinds : ∃ before t result calls, L = before ++ unwinding t result calls e ∧
    result.failed = true ∧ At before t calls ∧ (∀ e ∈ before, ¬ e.Closes) ∧
    (host.Honest → Unfailing before)

/-- What has been reported up to an outcome: how it is if all is well, and how it is
after an error. -/
structure Course (Well : List Event → Prop) (Ill : Error → List Event → Prop)
    (o : Except Stop α) (L : List Event) : Prop where
  prompt : Prompt L
  well : ∀ a, o = .ok a → Well L
  ill : ∀ e, o = .error (.failed e) → Ill e L

theorem Prompt.append {A B : List Event} (hA : Prompt A) (hB : Prompt B) : Prompt (A ++ B) := by
  induction A with
  | nil => exact hB
  | cons e A ih =>
    cases e with
    | startTask t name args params =>
      obtain ⟨ht, hA⟩ := hA
      refine ⟨fun hdeferred => ?_, ih hA⟩
      obtain ⟨result, rest, rfl⟩ := ht hdeferred
      exact ⟨result, rest ++ B, rfl⟩
    | _ => exact ih hA

theorem unfailing_append {A B : List Event} :
    Unfailing (A ++ B) ↔ Unfailing A ∧ Unfailing B := by
  simp only [Unfailing, List.mem_append, or_imp, forall_and]

theorem Calm.append {A B : List Event} (hA : Calm host A) (hB : Calm host B) :
    Calm host (A ++ B) := by
  refine ⟨hA.prompt.append hB.prompt, ?_, ?_, fun h => ?_⟩
  · rw [opened_append, hA.closed, hB.closed]
  · exact List.forall_mem_append.mpr ⟨hA.unclosed, hB.unclosed⟩
  · exact unfailing_append.mpr ⟨hA.unfailing h, hB.unfailing h⟩

namespace Smooth

variable {A B : List Event}

theorem nil (host : Host σ) : Smooth host [] :=
  ⟨⟨trivial, rfl, by simp, fun _ => by simp [Unfailing]⟩, fun _ => rfl⟩

theorem append (hA : Smooth host A) (hB : Smooth host B) : Smooth host (A ++ B) :=
  ⟨hA.toCalm.append hB.toCalm, fun stack => by rw [opened_append, hA.balanced, hB.balanced]⟩

/-- A turn that did not fail; what lies inside it belongs to a call. -/
theorem turn {t : Task} {inner : List Event} {result : Option TaskResult} (name args : String)
    (params : Vars) (hinner : Smooth host inner) (hcall : t.isDeferred = true → inner = [])
    (hresult : host.Honest → ∀ r, result = some r → r.failed = false) :
    Smooth host (.startTask t name args params :: (inner ++ [.finishTask t result])) := by
  have hbalanced (stack : List Task) : opened
      (.startTask t name args params :: (inner ++ [.finishTask t result])) stack = stack := by
    change opened (inner ++ _) (t :: stack) = stack
    rw [opened_append, hinner.balanced]
    rfl
  refine ⟨⟨⟨fun ht => ?_, hinner.prompt.append trivial⟩, hbalanced [], ?_, fun h => ?_⟩, hbalanced⟩
  · -- Only a call has something inside, and a call is never deferred.
    rw [hcall ht]
    exact ⟨result, [], rfl⟩
  · simpa [or_imp, forall_and, Event.Closes] using hinner.unclosed
  · have hinner' := hinner.unfailing h
    have hresult' := hresult h
    intro other r hmem
    simp only [List.mem_cons, List.mem_append, reduceCtorEq, false_or, List.not_mem_nil, or_false,
      Event.finishTask.injEq] at hmem
    rcases hmem with hmem | ⟨-, hr⟩
    · exact hinner' other r hmem
    · exact hresult' r hr.symm

end Smooth

/-- What came before a failure may have followed something else. -/
theorem Unwinds.after {At At' : List Event → Task → List Task → Prop} {A L : List Event} {e : Error}
    (hA : Calm host A)
    (hat : ∀ before t calls, At before t calls → At' (A ++ before) t calls)
    (h : Unwinds host At e L) : Unwinds host At' e (A ++ L) := by
  obtain ⟨hinTask, before, t, result, calls, rfl, hfailed, hat', hunclosed, hfirst⟩ := h
  refine ⟨hinTask, A ++ before, t, result, calls, ?_, hfailed, hat before t calls hat', ?_, ?_⟩
  · rw [List.append_assoc]
  · exact List.forall_mem_append.mpr ⟨hA.unclosed, hunclosed⟩
  · exact fun hhost => unfailing_append.mpr ⟨hA.unfailing hhost, hfirst hhost⟩

/-- A failure inside a call of a module is the call's failure as well. -/
theorem Unwinds.inCall {t : Task} {inner : List Event} {e : Error} (name args : String)
    (params : Vars) (ht : (p.module? t.command).isSome = true)
    (h : Unwinds host (OpenIn p) e inner) :
    Unwinds host (OpenIn p) e (.startTask t name args params ::
      (inner ++ [.finishTask t (some (TaskResult.ofFailure e.message))])) := by
  obtain ⟨hinTask, before, t', result, calls, rfl, hfailed, ⟨hopened, hcalls⟩, hunclosed, hfirst⟩ :=
    h
  refine ⟨hinTask, .startTask t name args params :: before, t', result, calls ++ [t],
    by simp [unwinding], hfailed, ⟨fun stack => ?_, ?_⟩, ?_, fun hhost => ?_⟩
  · change opened before (t :: stack) = _
    rw [hopened, List.append_assoc]
    rfl
  · simpa [or_imp, forall_and] using ⟨hcalls, ht⟩
  · exact List.forall_mem_cons.mpr ⟨id, hunclosed⟩
  · simpa [Unfailing] using hfirst hhost

namespace Course

variable {Well Well' : List Event → Prop} {Ill Ill' : Error → List Event → Prop}
  {A L : List Event}

theorem ok {a : α} (hprompt : Prompt L) (h : Well L) :
    Course Well Ill (.ok a : Except Stop α) L :=
  ⟨hprompt, fun _ _ => h, by simp⟩

theorem error {e : Stop} (h : Course Well Ill (.error e : Except Stop α) L) :
    Course Well' Ill (.error e : Except Stop β) L :=
  ⟨h.prompt, by simp, fun cause he => h.ill cause (congrArg _ (Except.error.inj he))⟩

theorem after {o : Except Stop α} (hA : Prompt A) (hwell : Well L → Well' (A ++ L))
    (hill : ∀ e, Ill e L → Ill' e (A ++ L)) (h : Course Well Ill o L) :
    Course Well' Ill' o (A ++ L) :=
  ⟨hA.append h.prompt, fun a ha => hwell (h.well a ha), fun e he => hill e (h.ill e he)⟩

theorem smooth {a : α} (h : Smooth host L) :
    Course (Smooth host) Ill (.ok a : Except Stop α) L := .ok h.prompt h

/-- A task that fails in its own turn. -/
theorem failed {t : Task} {result : TaskResult} {e : Error} (name args : String) (params : Vars)
    (hfailed : result.failed = true) (he : e.InTask) :
    Course (Smooth host) (Unwinds host (OpenIn p)) (.error (.failed e) : Except Stop α)
      [.startTask t name args params, .finishTask t (some result)] := by
  refine ⟨⟨fun _ => ⟨some result, [], rfl⟩, trivial⟩, by simp, ?_⟩
  rintro _ ⟨⟩
  exact ⟨he, [.startTask t name args params], t, result, [], rfl, hfailed,
    ⟨fun _ => rfl, by simp⟩, by simp [Event.Closes], fun _ => by simp [Unfailing]⟩

end Course

theorem OpenIn.after {A before : List Event} {t : Task} {calls : List Task} (hA : Smooth host A)
    (h : OpenIn p before t calls) : OpenIn p (A ++ before) t calls :=
  ⟨fun stack => by rw [opened_append, hA.balanced, h.1], h.2⟩

end Transcript

namespace Step

/-- A part of the tasks of a play, with its reports up to its outcome. -/
def Tells (host : Host σ) (p : Play) (x : Step σ α) : Prop :=
  Adds host p x (Course (Smooth host) (Unwinds host (OpenIn p)))

theorem Tells.pure (a : α) : Tells host p (pure a : Step σ α) :=
  Adds.pure (.smooth (.nil host))

theorem Tells.bind {x : Step σ α} {f : α → Step σ β} (hx : Tells host p x)
    (hf : ∀ a, Tells host p (f a)) : Tells host p (x >>= f) := by
  apply Adds.bind hx
  · intro a A hA
    apply (hf a).mono
    intro o L hL
    -- The first part has ended well, so that a failure may follow its events.
    have hsmooth : Smooth host A := hA.well a rfl
    exact hL.after hA.prompt hsmooth.append fun _ =>
      .after hsmooth.toCalm fun _ _ _ => .after hsmooth
  · exact fun e L hL => hL.error

theorem Adds.inWorldThat {z : RunM σ α} {P : α → Prop} (h : ∀ w : World σ, w.Later host (z.run w).2)
    (hP : Answers z P) :
    Adds host p (Step.inWorld z) fun o L => (∃ a, o = .ok a ∧ P a) ∧ L = [] :=
  fun s _ => ⟨[], ⟨⟨by simp, h s.world⟩, .refl _ _⟩, ⟨_, rfl, hP s.world⟩, rfl⟩

end Step

theorem Command.failed_failureResult (e : CommandError) :
    (Command.failureResult e).failed = true := by
  unfold failureResult
  split
  · dsimp only
    split <;> rfl
  · rfl

namespace Runner

open Step

variable {setup : Setup σ} {t : Task}

theorem adds_failTask_inTask (name : String) (cause : Error) :
    Adds host p (failTask (α := α) name cause) fun o L =>
      o = .error (.failed (cause.inTask p.name name)) ∧ L = [] := by
  apply Adds.getThen
  rintro s rfl
  exact .throw ⟨rfl, rfl⟩

theorem tells_fail (t : Task) (name args : String) (cause : Error) :
    Tells host p (reportFailure t name args cause >>= fun _ => failTask (α := α) name cause) := by
  apply (adds_reportFailure t name args cause).next
  intro _
  apply (adds_failTask_inTask name cause).mono
  rintro _ _ ⟨rfl, rfl⟩
  exact .failed name args [] rfl (cause.inTask_inTask p.name name)

theorem tells_anyChanged {run : α → Step σ Bool} (as : List α) (hrun : ∀ a, Tells host p (run a)) :
    Tells host p (anyChanged run as) := by
  induction as with
  | nil => exact .pure _
  | cons a as ih => exact (hrun a).bind fun _ => ih.bind fun _ => .pure _

theorem adds_runCommand_course (t : Task) (name args : String) (params : Vars)
    (command : Command) (scope : Scope) :
    Adds setup.host p (runCommand setup t name command scope) fun o L =>
      Course (Smooth setup.host) (Unwinds setup.host (OpenIn p)) o
        (.startTask t name args params :: L) := by
  have hlater (w : World σ) :
      w.Later setup.host ((command.run setup.host scope t).run w).2 :=
    (Command.agree_runWith (World.Later.aboutFutures w).kept (World.Later.agree_force w) scope t
      command).keeps (.refl w)
  have hanswers : Answers (command.run setup.host scope t) fun o =>
      setup.host.Honest → Unfailed o := fun w hhost =>
    Command.answers_runWith hhost _ scope t command w
  apply (Adds.inWorldThat hlater hanswers).bind
  · rintro o _ ⟨⟨_, ⟨⟩, ho⟩, rfl⟩
    cases o with
    | ok result =>
      apply (adds_complete t result).next
      intro _
      refine .pure (.smooth (.turn name args params (.nil _) (fun _ => rfl) fun hhost => ?_))
      rintro _ ⟨⟩
      exact ho hhost result rfl
    | error e =>
      apply (adds_complete t (Command.failureResult e)).next
      intro _
      apply (adds_failTask_inTask name (.command e)).mono
      rintro _ _ ⟨rfl, rfl⟩
      exact .failed name args params (Command.failed_failureResult e)
        (Error.inTask_inTask _ p.name name)
  · rintro e L ⟨⟨a, ha, -⟩, -⟩
    cases ha

theorem adds_callModule_course {call : Task → Scope → Step σ Bool} {m : Module}
    (hcall : ∀ sub outer, Tells host p (call sub outer)) (hm : p.module? t.command = some m)
    (ht : t.isDeferred = false) (name args : String) (params : Vars) (prepared : Prepared)
    (scope : Scope) :
    Adds host p (callModule call t prepared m scope) fun o L =>
      Course (Smooth host) (Unwinds host (OpenIn p)) o
        (.startTask t name args params :: L) := by
  apply (adds_newTable prepared.params).next
  intro table
  apply (tells_anyChanged m.tasks fun sub => hcall sub (.table table :: scope)).outcome.bind
  · rintro o inner ⟨_, ⟨⟩, hinner⟩
    rcases o with (cause | _) | changed
    · have hunwinds : Unwinds host (OpenIn p) cause inner := hinner.ill cause rfl
      apply Adds.next (Adds.emit rfl rfl)
      intro _
      apply (adds_failTask_inTask prepared.name cause).mono
      rintro _ _ ⟨rfl, rfl⟩
      -- The cause names its task already, so the call does not add its own.
      rw [hunwinds.inTask]
      refine ⟨⟨by simp [ht], hinner.prompt.append trivial⟩, by simp, ?_⟩
      rintro _ ⟨⟩
      exact hunwinds.inCall name args params (by rw [hm]; rfl)
    · apply Adds.throw
      refine ⟨⟨by simp [ht], ?_⟩, by simp, by simp⟩
      simpa using hinner.prompt
    · have hsmooth : Smooth host inner := hinner.well changed rfl
      apply (adds_complete t _).next
      intro _
      refine .pure (.smooth (.turn name args params hsmooth (by simp [ht]) fun _ => ?_))
      rintro _ ⟨⟩
      cases changed <;> rfl
  · rintro e L ⟨o, ho, -⟩
    cases ho

theorem tells_runOnce {call : Task → Scope → Step σ Bool}
    (hcall : ∀ sub outer, Tells setup.host p (call sub outer)) (t : Task) (outer : Scope) :
    Tells setup.host p (runOnce setup call t outer) := by
  apply Adds.getThen
  intro s hs
  rw [hs]
  apply (adds_prepare t (t.scope outer)).bind
  · rintro r _ ⟨⟨_, ⟨⟩, hcalls⟩, rfl⟩
    cases r with
    | error u => exact tells_fail t u.name u.args u.cause
    | ok prepared =>
      -- What follows the start is judged together with it.
      apply Adds.next (Adds.emit rfl rfl)
      intro _
      cases haction : prepared.action with
      | call m =>
        obtain ⟨hm, ht⟩ := hcalls prepared rfl m haction
        exact adds_callModule_course hcall hm ht _ _ _ prepared (t.scope outer)
      | run command =>
        dsimp only
        cases hfuture : futureName? t prepared.name with
        | none => exact adds_runCommand_course t prepared.name _ _ command _
        | some future =>
          apply (adds_dispatch t prepared.name future command (t.scope outer)).next
          intro _
          exact .pure (.smooth (.turn _ _ _ (.nil _) (fun _ => rfl) fun _ => by simp))
  · rintro e L ⟨⟨r, hr, -⟩, -⟩
    cases hr

theorem tells_runItem {call : Task → Scope → Step σ Bool}
    (hcall : ∀ sub outer, Tells setup.host p (call sub outer)) (t : Task) (outer : Scope)
    (item : Value) : Tells setup.host p (runItem setup call t outer item) := by
  apply (adds_newTable [("item", item)]).next
  intro table
  exact tells_runOnce hcall t (.table table :: outer)

theorem tells_runTaskWith {call : Task → Scope → Step σ Bool}
    (hcall : ∀ sub outer, Tells setup.host p (call sub outer)) (t : Task) (outer : Scope) :
    Tells setup.host p (runTaskWith setup call t outer) := by
  rw [runTaskWith_eq]
  apply (adds_due t outer).next
  rintro (e | _ | _)
  · exact tells_fail t t.name "" (.expr e)
  · exact Tells.pure false
  · change Tells setup.host p (runDue setup call t outer)
    unfold runDue
    cases t.items with
    | none => exact tells_runOnce hcall t outer
    | some items => exact tells_anyChanged items (tells_runItem hcall t outer)

theorem tells_runTask (setup : Setup σ) (p : Play) (depth : Nat) (t : Task) (outer : Scope) :
    Tells setup.host p (runTask setup depth t outer) := by
  induction depth generalizing t outer with
  | zero => exact Adds.throw ⟨trivial, by simp, by simp⟩
  | succ depth ih => exact tells_runTaskWith ih t outer

theorem tells_runPlayTask (p : Play) (t : Task) : Tells setup.host p (runPlayTask setup t) :=
  Adds.getThen fun _ _ => tells_runTask setup p setup.callDepth t _

end Runner

end PlaybookRunner
