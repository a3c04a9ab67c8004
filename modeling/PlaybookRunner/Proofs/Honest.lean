import PlaybookRunner.Proofs.Evolution

/-!
# Honest commands

A command that fails answers an error. The commands of the program keep to this;
where the external commands do as well, no result of a command is a failed one.
-/

namespace PlaybookRunner

variable {σ α : Type} {host : Host σ}

/-- An external command that answers a result has not failed: failures are errors. -/
def Host.Honest (host : Host σ) : Prop :=
  ∀ t name params state result, (host.runExternal t name params state).1 = .ok result →
    result.failed = false

/-- An outcome that is not a failed result. -/
def Unfailed (o : Except α TaskResult) : Prop := ∀ result, o = .ok result → result.failed = false

namespace Unfailed

theorem error (e : α) : Unfailed (.error e) := by simp [Unfailed]

theorem ok {result : TaskResult} (h : result.failed = false) :
    Unfailed (.ok result : Except α _) := by
  rintro _ ⟨⟩
  exact h

end Unfailed

namespace Command

theorem unfailed_ofOutcome (shown : String) (outcome : ProcessOutcome) :
    Unfailed (ofOutcome shown outcome) := by
  cases outcome with
  | notStarted reason => exact .error _
  | finished status stdout stderr =>
    unfold ofOutcome
    dsimp only
    split
    · exact .ok rfl
    · exact .error _

theorem unfailed_skipped? {state : σ} {params : ExecParams} {result : TaskResult}
    (h : skipped? host state params = some result) : result.failed = false := by
  unfold skipped? at h
  dsimp only at h
  split at h <;> cases h <;> rfl

theorem answers_runChecks (look : String → RunM σ (Option Value)) (message : Option String)
    (conditions : List String) : Answers (runChecks look message conditions) Unfailed := by
  induction conditions with
  | nil => exact .pure (.ok rfl)
  | cons condition rest ih =>
    apply Answers.bind
    intro o
    cases o with
    | error e => exact .pure (.error _)
    | ok value =>
      by_cases h : value.truthy
      · simpa only [if_pos h] using ih
      · simpa only [if_neg h] using .pure (.error _)

theorem answers_runDebug (look : String → RunM σ (Option Value)) (message path : Option String) :
    Answers (runDebug look message path) Unfailed := by
  cases path with
  | none => cases message <;> exact .pure (.ok rfl)
  | some path =>
    cases message with
    | some message => exact .pure (.error _)
    | none =>
      apply Answers.bind
      intro o
      rcases o with e | v
      · cases e with
        | undefined name => exact .pure (.ok rfl)
        | _ => exact .pure (.error _)
      · exact .pure (.ok rfl)

theorem answers_runSetFact (scope : Scope) (facts : Vars) :
    Answers (runSetFact scope facts : RunM σ _) Unfailed := by
  unfold runSetFact
  cases Dict.get? facts Arguments.rawKey with
  | some raw => exact .pure (.error _)
  | none =>
    by_cases h : facts.isEmpty
    · simpa only [if_pos h] using Answers.pure (.error _)
    · simpa only [if_neg h] using Answers.bind fun _ => .pure (.ok rfl)

/-- A command does not answer a failed result, if the external commands do not. -/
theorem answers_runWith (hhost : host.Honest) (force : Forcing σ) (scope : Scope) (t : Task)
    (command : Command) : Answers (command.runWith host force scope t) Unfailed := by
  cases command with
  | program params =>
    apply Answers.bind
    intro w
    cases hskipped : skipped? host w.host params with
    | some result => exact .pure (.ok (unfailed_skipped? hskipped))
    | none =>
      cases programWords params with
      | error e => exact .pure (.error _)
      | ok words => exact fun _ => unfailed_ofOutcome _ _
  | shell params =>
    apply Answers.bind
    intro w
    cases hskipped : skipped? host w.host params with
    | some result => exact .pure (.ok (unfailed_skipped? hskipped))
    | none =>
      cases commandLine params with
      | error e => exact .pure (.error _)
      | ok line => exact fun _ => unfailed_ofOutcome _ _
  | check conditions message =>
    by_cases h : conditions.isEmpty
    · simpa only [runWith, if_pos h] using Answers.pure (.error _)
    · simpa only [runWith, if_neg h] using answers_runChecks _ message conditions
  | debug message path => exact answers_runDebug _ message path
  | setFact facts => exact answers_runSetFact scope facts
  | external name params => exact fun w result h => hhost t name params w.host result h

end Command

/-- A deferred task that is awaited with a result has not failed. -/
theorem Job.Yields.unfailed (hhost : host.Honest) {command : Command} {scope : Scope} {t : Task}
    {outcome : Except String TaskResult} (h : (Job.command command scope t).Yields host outcome) :
    Unfailed outcome := by
  obtain ⟨force, w, rfl⟩ := h
  have hcommand := Command.answers_runWith hhost force scope t command w
  rw [runWith, StateT.run_bind]
  rcases hrun : (command.runWith host force scope t).run w with ⟨o, v⟩
  rw [hrun] at hcommand
  cases o with
  | ok result => exact .ok (hcommand result rfl)
  | error e => exact .error _

end PlaybookRunner
