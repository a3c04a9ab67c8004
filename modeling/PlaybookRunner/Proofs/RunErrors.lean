import PlaybookRunner.Proofs.Reruns

/-!
# Errors of a run

What ends a run arose in a task and carries the play and the task. It is the error of an
expression, of a binding, of a command, of a future, or of a task that makes no sense; the
errors of files and of settings come before a run.
-/

namespace PlaybookRunner

variable {σ α β : Type}

/-- The error of a task. -/
inductive Error.FromTask : Error → Prop
  | expr (cause : ExprError) : FromTask (.expr cause)
  | bind (cause : BindError) : FromTask (.bind cause)
  | command (cause : CommandError) : FromTask (.command cause)
  | futureFailed (name message : String) : FromTask (.futureFailed name message)
  | invalidTask (name message : String) : FromTask (.invalidTask name message)

/-- The error of a task, with the play and the task. -/
inductive Error.EndsRun : Error → Prop
  | task (play name : String) {cause : Error} (h : cause.FromTask) :
      EndsRun (.task play name cause)

namespace Error

theorem FromTask.inTask {e : Error} (h : e.FromTask) (play name : String) :
    (e.inTask play name).EndsRun := by
  cases h <;> exact .task play name (by constructor)

theorem EndsRun.inTask {e : Error} (h : e.EndsRun) (play name : String) :
    (e.inTask play name).EndsRun := by
  cases h with
  | task play' name' h => exact .task play' name' h

theorem exitCode_root (e : Error) : e.root.exitCode = e.exitCode := by
  induction e with
  | task play name source ih => exact ih
  | _ => rfl

theorem exitCode_pos (e : Error) : 0 < e.exitCode := by
  rw [← exitCode_root]
  cases e.root with
  | task play name source => simp only [exitCode]; split <;> omega
  | _ => simp [exitCode, root]

/-- A failed command or future has one exit status, a task that could not be prepared
another. -/
theorem EndsRun.exitCode {e : Error} (h : e.EndsRun) : e.exitCode = 2 ∨ e.exitCode = 3 := by
  cases h with
  | task play name h => cases h <;> simp [Error.exitCode, root]

end Error

namespace Step

/-- Where the part fails, the error fits the condition. -/
def Throws (x : Step σ α) (P : Error → Prop) : Prop :=
  ∀ s e v, x.run.run s = (.error (.failed e), v) → P e

namespace Throws

variable {x : Step σ α} {f : α → Step σ β} {P : Error → Prop}

theorem pure (a : α) : (pure a : Step σ α).Throws P := by
  intro s e v h
  cases h

theorem tooDeep : (throw .tooDeep : Step σ α).Throws P := by
  intro s e v h
  cases h

theorem bind (hx : x.Throws P) (hf : ∀ a, (f a).Throws P) : (x >>= f).Throws P := by
  intro s e v h
  change (ExceptT.bindCont f (x.run.run s).1).run (x.run.run s).2 = (.error (.failed e), v) at h
  rcases hrun : x.run.run s with ⟨o, w⟩
  rw [hrun] at h
  cases o with
  | ok a => exact hf a w e v h
  | error stop =>
    cases h
    exact hx s e w hrun

theorem getThen {g : RunState σ → Step σ α} (h : ∀ s, (g s).Throws P) : (get >>= g).Throws P :=
  fun s e v hrun => h s s e v hrun

theorem emit (event : Event) : (Step.emit event : Step σ Unit).Throws P := by
  intro s e v h
  cases h

theorem modify (change : RunState σ → RunState σ) : (modify change : Step σ Unit).Throws P := by
  intro s e v h
  cases h

theorem inWorld (z : RunM σ α) : (Step.inWorld z).Throws P := by
  intro s e v h
  cases h

theorem inWorldThen {z : RunM σ α} {Q : α → Prop} (hz : Answers z Q)
    (hf : ∀ a, Q a → (f a).Throws P) : (Step.inWorld z >>= f).Throws P := by
  intro s e v h
  exact hf _ (hz s.world) _ e v h

/-- The error with which the part ended goes into what follows. -/
theorem outcomeThen {g : Except Stop α → Step σ β} (hx : x.Throws P)
    (hg : ∀ o, (∀ e, o = .error (.failed e) → P e) → (g o).Throws P) :
    (Step.outcome x >>= g).Throws P := by
  intro s e v h
  rcases hrun : x.run.run s with ⟨o, w⟩
  have h : (g o).run.run w = (.error (.failed e), v) := by
    change (g (x.run.run s).1).run.run (x.run.run s).2 = (.error (.failed e), v) at h
    rwa [hrun] at h
  refine hg o ?_ w e v h
  rintro e rfl
  exact hx s e w hrun

theorem failTask {name : String} {cause : Error} (h : ∀ play, P (cause.inTask play name)) :
    (Step.failTask name cause : Step σ α).Throws P := by
  intro s e v hrun
  cases hrun
  exact h s.current.play.name

theorem anyChanged {run : α → Step σ Bool} (h : ∀ a, (run a).Throws P) (as : List α) :
    (Runner.anyChanged run as).Throws P := by
  induction as with
  | nil => exact .pure _
  | cons a rest ih => exact (h a).bind fun first => ih.bind fun others => .pure _

theorem mapM (h : ∀ a, (f a).Throws P) (as : List α) : (as.mapM f).Throws P := by
  induction as with
  | nil => exact .pure _
  | cons a rest ih =>
    rw [List.mapM_cons]
    exact (h a).bind fun b => ih.bind fun bs => .pure _

theorem foldlM {g : β → α → Step σ β} (h : ∀ b a, (g b a).Throws P) (b : β) (as : List α) :
    (as.foldlM g b).Throws P := by
  induction as generalizing b with
  | nil => exact .pure _
  | cons a rest ih =>
    rw [List.foldlM_cons]
    exact (h b a).bind fun b => ih b

theorem forM {g : α → Step σ Unit} (h : ∀ a, (g a).Throws P) (as : List α) :
    (as.forM g).Throws P := by
  induction as with
  | nil => exact .pure _
  | cons a rest ih => exact (h a).bind fun _ => ih

end Throws

end Step

variable {host : Host σ} {setup : Setup σ}

/-- An outcome whose error is that of a task. -/
def FailsFromTask (o : Except Error α) : Prop := ∀ e, o = .error e → e.FromTask

theorem Future.answers_forceWithin (bound i : Nat) :
    Answers (forceWithin host bound i) FailsFromTask := by
  have hok (result : TaskResult) : FailsFromTask (.ok result) := by simp [FailsFromTask]
  have herror (name message : String) :
      FailsFromTask (.error (.futureFailed name message) : Except Error TaskResult) := by
    rintro e ⟨⟩
    exact .futureFailed name message
  unfold forceWithin
  apply Answers.bind
  intro w
  dsimp only
  split
  · exact .pure (herror _ _)
  · split
    · exact .pure (hok _)
    · exact .pure (herror _ _)
    · exact .pure (herror _ _)
    · cases bound with
      | zero => exact .pure (herror _ _)
      | succ bound =>
        apply Answers.bind
        intro _
        apply Answers.bind
        intro o
        cases o with
        | ok result => exact Answers.bind fun _ => .pure (hok _)
        | error message => exact Answers.bind fun _ => .pure (herror _ _)

theorem Future.answers_force (i : Nat) : Answers (force host i) FailsFromTask :=
  fun w => answers_forceWithin w.pendingWeight i w

namespace Task

theorem fromTask_of_bindAction {registry : Registry} {play : Play} {task : Task}
    {name args : String} {vars : Vars} {e : Error}
    (h : bindAction registry play task name args vars = .error e) : e.FromTask := by
  unfold bindAction at h
  split at h
  · split at h
    · cases h
      exact .invalidTask _ _
    · split at h <;> cases h
      exact .bind _
  · split at h
    · cases h
      exact .bind _
    · split at h <;> cases h
      exact .bind _

theorem answers_prepare (play : Play) (task : Task) (scope : Scope) :
    Answers (task.prepare setup play scope) fun o => ∀ u, o = .error u → u.cause.FromTask := by
  have hexpr (name args : String) (cause : ExprError) (u : Unprepared)
      (h : (.error { name, args, cause := .expr cause } : Except Unprepared Prepared) = .error u) :
      u.cause.FromTask := by
    cases h
    exact .expr cause
  unfold prepare
  apply Answers.bind
  rintro (e | name)
  · exact .pure (hexpr _ _ _)
  apply Answers.bind
  rintro (e | args)
  · exact .pure (hexpr _ _ _)
  apply Answers.bind
  rintro (e | vars)
  · exact .pure (hexpr _ _ _)
  dsimp only
  cases hbind : bindAction setup.registry play task name args vars with
  | error cause =>
    refine .pure ?_
    rintro u ⟨⟩
    exact fromTask_of_bindAction hbind
  | ok prepared => exact .pure (by simp)

end Task

namespace Runner

open Step

theorem throws_reportFailure (task : Task) (name args : String) (cause : Error) {P : Error → Prop} :
    (reportFailure task name args cause : Step σ Unit).Throws P :=
  (Throws.emit _).bind fun _ => .emit _

theorem throws_complete (task : Task) (result : TaskResult) {P : Error → Prop} :
    (complete task result : Step σ Unit).Throws P := by
  unfold complete
  apply Throws.getThen
  intro s
  dsimp only
  have hrest : (do
      inWorld (modify (World.record task result))
      emit (.finishTask task (some result))
      if !result.failed && result.changed then
        modify fun s => { s with current := s.current.notify task } : Step σ Unit).Throws P := by
    refine (Throws.inWorld _).bind fun _ => (Throws.emit _).bind fun _ => ?_
    split
    · exact .modify _
    · exact .pure _
  cases task.register with
  | some name => exact (Throws.inWorld _).bind fun _ => hrest
  | none => exact hrest

theorem throws_dispatch (task : Task) (name future : String) (command : Command) (scope : Scope)
    {P : Error → Prop} : (dispatch setup task name future command scope).Throws P := by
  apply Throws.getThen
  intro s
  exact (Throws.inWorld _).bind fun _ => (Throws.inWorld _).bind fun _ =>
    (Throws.emit _).bind fun _ => .modify _

theorem throws_runCommand (task : Task) (name : String) (command : Command) (scope : Scope) :
    (runCommand setup task name command scope).Throws Error.EndsRun := by
  refine (Throws.inWorld _).bind fun o => ?_
  cases o with
  | ok result => exact (throws_complete task result).bind fun _ => .pure _
  | error e =>
    refine (throws_complete task _).bind fun _ => .failTask fun play => ?_
    exact (Error.FromTask.command e).inTask play name

variable {call : Task → Scope → Step σ Bool}

theorem throws_callModule (hcall : ∀ t scope, (call t scope).Throws Error.EndsRun) (task : Task)
    (prepared : Prepared) (m : Module) (scope : Scope) :
    (callModule call task prepared m scope).Throws Error.EndsRun := by
  refine (Throws.inWorld _).bind fun table => ?_
  refine (Throws.anyChanged (fun sub => hcall sub _) m.tasks).outcomeThen fun o ho => ?_
  match o with
  | .ok changed => exact (throws_complete task _).bind fun _ => .pure _
  | .error .tooDeep => exact .tooDeep
  | .error (.failed cause) =>
    exact (Throws.emit _).bind fun _ => .failTask fun play => (ho cause rfl).inTask play _

theorem throws_runOnce (hcall : ∀ t scope, (call t scope).Throws Error.EndsRun) (task : Task)
    (outer : Scope) : (runOnce setup call task outer).Throws Error.EndsRun := by
  apply Throws.getThen
  intro s
  refine Throws.inWorldThen (task.answers_prepare s.current.play (task.scope outer))
    fun o ho => ?_
  cases o with
  | error u =>
    exact (throws_reportFailure task _ _ _).bind fun _ => .failTask fun play =>
      (ho u rfl).inTask play _
  | ok prepared =>
    refine (Throws.emit _).bind fun _ => ?_
    cases prepared.action with
    | call m => exact throws_callModule hcall task prepared m _
    | run command =>
      dsimp only
      cases futureName? task prepared.name with
      | some future => exact (throws_dispatch task _ _ _ _).bind fun _ => .pure _
      | none => exact throws_runCommand task _ _ _

theorem throws_runTaskWith (hcall : ∀ t scope, (call t scope).Throws Error.EndsRun) (task : Task)
    (outer : Scope) : (runTaskWith setup call task outer).Throws Error.EndsRun := by
  have hitem (item : Value) : (runItem setup call task outer item).Throws Error.EndsRun :=
    (Throws.inWorld _).bind fun _ => throws_runOnce hcall task _
  rw [runTaskWith_eq]
  refine (Throws.inWorld _).bind fun due => ?_
  rcases due with e | _ | _
  · exact (throws_reportFailure task _ _ _).bind fun _ => .failTask fun play =>
      (Error.FromTask.expr e).inTask play _
  · exact .pure _
  · change (runDue setup call task outer).Throws Error.EndsRun
    unfold runDue
    cases task.items with
    | none => exact throws_runOnce hcall task outer
    | some items => exact .anyChanged hitem items

theorem throws_runTask (depth : Nat) (task : Task) (outer : Scope) :
    (runTask setup depth task outer).Throws Error.EndsRun := by
  induction depth generalizing task outer with
  | zero => exact .tooDeep
  | succ depth ih => exact throws_runTaskWith ih task outer

theorem throws_runPlayTask (task : Task) : (runPlayTask setup task).Throws Error.EndsRun :=
  Throws.getThen fun _ => throws_runTask _ task _

theorem throws_drain : (drain setup).Throws Error.EndsRun := by
  apply Throws.getThen
  intro s
  refine (Throws.modify _).bind fun _ => Throws.forM (fun d => ?_) _
  refine Throws.inWorldThen (Future.answers_force d.future) fun o ho => ?_
  cases o with
  | ok result =>
    refine (Throws.emit _).bind fun _ => ?_
    split
    · exact .modify _
    · exact .pure _
  | error e =>
    exact (Throws.emit _).bind fun _ => .failTask fun play => (ho e rfl).inTask play _

theorem throws_runHandler (started : Bool) (handler : Task) :
    (runHandler setup started handler).Throws Error.EndsRun := by
  apply Throws.getThen
  intro s
  split
  · have hrun : (runPlayTask setup handler >>= fun _ => (pure true : Step σ Bool)).Throws
        Error.EndsRun := (throws_runPlayTask handler).bind fun _ => .pure _
    cases started with
    | false => exact (Throws.emit _).bind fun _ => hrun
    | true => exact hrun
  · exact .pure _

theorem throws_runPhases (plays : List Play) :
    (runPhases setup plays).Throws Error.EndsRun := by
  have hplay (p : Play) : (runPlay setup p).Throws Error.EndsRun :=
    (Throws.inWorld _).bind fun _ => (Throws.modify _).bind fun _ =>
      (Throws.anyChanged throws_runPlayTask p.tasks).bind fun _ => Throws.getThen fun _ => .pure _
  have hdrain (st : PlayState) : (drainPlay setup st).Throws Error.EndsRun :=
    (Throws.modify _).bind fun _ => throws_drain.bind fun _ => Throws.getThen fun _ => .pure _
  have hhandlers (started : Bool) (st : PlayState) :
      (runHandlers setup started st).Throws Error.EndsRun :=
    (Throws.modify _).bind fun _ => (Throws.foldlM throws_runHandler started _).bind fun _ =>
      throws_drain.bind fun _ => .pure _
  refine (Throws.emit _).bind fun _ => (Throws.mapM hplay plays).bind fun states => ?_
  refine (Throws.emit _).bind fun _ => (Throws.mapM hdrain states).bind fun states => ?_
  refine (Throws.foldlM hhandlers false states).bind fun started => ?_
  cases started with
  | false => exact .emit _
  | true => exact (Throws.emit _).bind fun _ => .emit _

/-- An error that ends a run arose in a task, and carries the play and the task. -/
theorem endsRun_of_run {book : Playbook} {world : World σ} {e : Error}
    (h : (run setup book world).error = some e) : e.EndsRun := by
  rw [run_eq] at h
  rcases hrun : (runPhases setup book.plays).run.run (RunState.initial world) with ⟨(e' | _) | _, s⟩
  · rw [hrun] at h
    cases h
    exact throws_runPhases book.plays _ _ _ hrun
  · rw [hrun] at h
    cases h
  · rw [hrun] at h
    cases h

end Runner

end PlaybookRunner
