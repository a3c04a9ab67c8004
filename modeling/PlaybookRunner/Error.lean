import PlaybookRunner.Expr.Text
import PlaybookRunner.TaskResult

/-!
# Errors of a run

Errors are causes; their wording is one function per type. An error of a task
carries the play and the task in which it arose, once.
-/

namespace PlaybookRunner

/-- Why a command failed. -/
inductive CommandError
  /-- The command ran and reported failure, possibly with what it produced. -/
  | failed (message : String) (result : Option TaskResult)
  | invalidParameter (message : String)
  | expr (cause : ExprError)
  | io (message : String)

/-- The wording of a command's failure. -/
def CommandError.message : CommandError → String
  | failed message _ => message
  | invalidParameter message => s!"Invalid parameter: {message}"
  | expr cause => "Expression error: " ++ cause.message
  | io message => s!"IO error: {message}"

/-- What a failed command produced nevertheless. -/
def CommandError.result? : CommandError → Option TaskResult
  | failed _ result => result
  | _ => none

/-- Why arguments do not make a command. -/
inductive BindError
  | unknownCommand (name : String)
  | invalidArgs (command message : String)
deriving DecidableEq, Repr

/-- The wording of a binding error. -/
def BindError.message : BindError → String
  | unknownCommand name => s!"Unknown command: {name}"
  | invalidArgs command message => s!"Invalid arguments for '{command}': {message}"

/-- Why a file of a playbook cannot be used. -/
inductive LoadFault
  /-- The file cannot be read. -/
  | unreadable (reason : String)
  /-- The file is not a document of its format. -/
  | malformed
  /-- A play, counted from one, does not have the shape of a play. -/
  | badPlay (index : Nat)
  /-- The content breaks a rule of playbooks. -/
  | rule (message : String)
deriving DecidableEq, Repr

/-- The wording of a fault, where the fault has words of its own. -/
def LoadFault.message? : LoadFault → Option String
  | unreadable reason => some reason
  | rule message => some message
  | malformed => none
  | badPlay _ => none

/-- What ends a run, or prevents it. -/
inductive Error
  | expr (cause : ExprError)
  | bind (cause : BindError)
  | command (cause : CommandError)
  | task (play name : String) (source : Error)
  | futureFailed (name message : String)
  | invalidTask (name message : String)
  | playbook (path : String) (fault : LoadFault)
  | config (message : String)
  | io (message : String)
  | yaml
  | json
deriving Inhabited

namespace Error

/-- The wording of an error. Where a document is malformed only the kind of
error is worded. -/
def message : Error → String
  | expr cause => cause.message
  | bind cause => cause.message
  | command cause => cause.message
  | task play name source => s!"Task '{name}' in play '{play}' failed: {source.message}"
  | futureFailed name text => s!"Future '{name}' failed: {text}"
  | invalidTask name text => s!"Invalid task '{name}': {text}"
  | playbook path fault =>
    s!"Failed to parse playbook '{path}': " ++ fault.message?.getD ""
  | config text => s!"Configuration error: {text}"
  | io text => s!"IO error: {text}"
  | yaml => "YAML parse error"
  | json => "JSON parse error"

/-- Adds the play and the task, unless the error already carries some. -/
def inTask (e : Error) (play name : String) : Error :=
  match e with
  | task .. => e
  | e => task play name e

/-- The error inside the context of tasks. -/
def root : Error → Error
  | task _ _ source => source.root
  | e => e

/-- The exit status that stands for an error. -/
def exitCode (e : Error) : Nat :=
  match e.root with
  | command _ => 2
  | futureFailed .. => 2
  | expr _ => 3
  | bind _ => 3
  | invalidTask .. => 3
  | playbook .. => 4
  | yaml => 4
  | config _ => 5
  | _ => 1

end Error

section

variable {ε α β : Type} {x : Except ε α}

theorem bind_eq_ok_iff {f : α → Except ε β} {b : β} :
    x >>= f = .ok b ↔ ∃ a, x = .ok a ∧ f a = .ok b := by
  cases x with
  | error e => simp [bind, Except.bind]
  | ok a => simp [bind, Except.bind]

theorem bind_eq_error_iff {f : α → Except ε β} {e : ε} :
    x >>= f = .error e ↔ x = .error e ∨ ∃ a, x = .ok a ∧ f a = .error e := by
  cases x with
  | error e' => simp [bind, Except.bind]
  | ok a => simp [bind, Except.bind]

theorem toOption_eq_some_iff {a : α} : x.toOption = some a ↔ x = .ok a := by
  cases x <;> simp [Except.toOption]

theorem map_eq_ok_iff {f : α → β} {b : β} : x.map f = .ok b ↔ ∃ a, x = .ok a ∧ f a = b := by
  cases x <;> simp [Except.map]

theorem mapError_eq_ok_iff {ε' : Type} {f : ε → ε'} {a : α} : x.mapError f = .ok a ↔ x = .ok a := by
  cases x with
  | error e => exact ⟨nofun, nofun⟩
  | ok b =>
    exact ⟨fun h => congrArg Except.ok (Except.ok.inj h),
      fun h => congrArg Except.ok (Except.ok.inj h)⟩

theorem map_eq_error_iff {f : α → β} {e : ε} : x.map f = .error e ↔ x = .error e := by
  cases x <;> simp [Except.map]

end

end PlaybookRunner
