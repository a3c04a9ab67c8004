import PlaybookRunner.TaskResult

/-!
# Tasks, plays and playbooks

A task names a command or a module of its play. A play is a list of tasks, with
handlers that tasks notify and modules that tasks call.
-/

namespace PlaybookRunner

/-- One step of a play, as it is declared. -/
structure Task where
  /-- The name, possibly with templates. -/
  name : String
  /-- The command or module to run. -/
  command : String
  /-- The argument text, possibly with templates. -/
  args : String := ""
  /-- Structured arguments. -/
  vars : Vars := []
  /-- Variables of the includes the task came through; they precede every scope. -/
  includeVars : Vars := []
  /-- The condition under which the task runs. -/
  condition : Option String := none
  /-- The items to loop over. -/
  items : Option (List Value) := none
  /-- The handlers to notify of a change. -/
  notify : List String := []
  /-- The variable that receives the result. -/
  register : Option String := none
  /-- The name under which the task runs deferred. -/
  future : Option String := none
  /-- The task runs deferred under its own name. -/
  isAsync : Bool := false
deriving Inhabited

namespace Task

/-- The task runs deferred. -/
def isDeferred (t : Task) : Bool := t.isAsync || t.future.isSome

/-- Items agree: both absent, or the same one by one. -/
def sameItems : Option (List Value) → Option (List Value) → Bool
  | none, none => true
  | some as, some bs => Value.sameItems as bs
  | _, _ => false

/-- Tasks that agree in every part. -/
def same (a b : Task) : Bool :=
  a.name == b.name && a.command == b.command && a.args == b.args &&
    Value.sameVars a.vars b.vars && Value.sameVars a.includeVars b.includeVars &&
    a.condition == b.condition && sameItems a.items b.items && a.notify == b.notify &&
    a.register == b.register && a.future == b.future && a.isAsync == b.isAsync

end Task

/-- A list of tasks that is called like a command. -/
structure Module where
  name : String
  tasks : List Task := []
deriving Inhabited

/-- Tasks in order, with handlers, modules and variables. -/
structure Play where
  name : String
  tasks : List Task := []
  handlers : List Task := []
  modules : Dict Module := []
  vars : Vars := []
deriving Inhabited

/-- The module that a command name refers to. -/
def Play.module? (p : Play) (command : String) : Option Module := Dict.get? p.modules command

/-- Plays in order, and the directory that relative paths start from. -/
structure Playbook where
  plays : List Play := []
  baseDir : String := ""
deriving Inhabited

/-- The number of tasks of all plays, handlers and modules apart. -/
def Playbook.taskCount (b : Playbook) : Nat := b.plays.foldr (fun p sum => p.tasks.length + sum) 0

end PlaybookRunner
