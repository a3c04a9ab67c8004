import PlaybookRunner.Command.Basic
import PlaybookRunner.Task

/-!
# Scopes and futures

A scope is a stack of layers: a table of variables, or fixed overrides. Tables
live in a world, so that scopes share them; a table may also bind names to
futures, which precede its variables. A future is a job that runs at most once,
when its value is first needed.
-/

namespace PlaybookRunner

/-- One layer of a scope. -/
inductive Layer
  /-- A table of the world. -/
  | table (index : Nat)
  /-- Bindings that are consulted but never written. -/
  | fixed (vars : Vars)

/-- A variable environment, innermost layer first. -/
abbrev Scope := List Layer

/-- The table that writes to a scope go to. -/
def Scope.owner? : Scope → Option Nat
  | [] => none
  | .table index :: _ => some index
  | .fixed _ :: rest => owner? rest

/-- What a future computes. -/
inductive Job
  | succeed (result : TaskResult)
  | fail (message : String)
  /-- Reads a variable of a scope. -/
  | read (scope : Scope) (key : String)
  /-- Evaluates a text in a scope. -/
  | evaluate (scope : Scope) (text : String)
  /-- Registers another future in a table. -/
  | register (table : Nat) (name : String) (job : Job)
  /-- Stops without an outcome. -/
  | panic
  /-- Runs the command of a task in a scope. -/
  | command (command : Command) (scope : Scope) (task : Task)
deriving Inhabited

/-- The number of jobs that a job can bring about, itself included. -/
def Job.weight : Job → Nat
  | register _ _ job => job.weight + 1
  | _ => 1

/-- How far a future has come. -/
inductive Progress
  | pending (job : Job)
  | running
  | ready (result : TaskResult)
  | failed (message : String)

/-- A computation that is run at most once and remembered. -/
structure Future where
  name : String
  progress : Progress

/-- The jobs that a future can still bring about. -/
def Future.weight (f : Future) : Nat :=
  match f.progress with
  | .pending job => job.weight
  | _ => 0

/-- A table of variables, with names bound to futures. -/
structure Table where
  vars : Vars := []
  futures : Dict Nat := []
deriving Inhabited

/-- The tables and futures of a run, what was recorded of its tasks, and the
state of its surroundings. -/
structure World (σ : Type) where
  tables : Array Table := #[]
  futures : Array Future := #[]
  /-- The results of commands and module calls, in order of completion. -/
  recorded : Array (Task × TaskResult) := #[]
  /-- The number of jobs that were run. -/
  executed : Nat := 0
  host : σ

namespace World

variable {σ : Type}

/-- A table; an empty one where there is none. -/
def table (w : World σ) (index : Nat) : Table := w.tables.getD index {}

/-- Adds a table holding some variables, and answers its index. -/
def newTable (vars : Vars) (w : World σ) : Nat × World σ :=
  (w.tables.size, { w with tables := w.tables.push { vars } })

/-- Changes a table. -/
def modifyTable (index : Nat) (change : Table → Table) (w : World σ) : World σ :=
  { w with tables := w.tables.modify index change }

/-- Binds a variable in the table that owns the writes to a scope. -/
def set (scope : Scope) (key : String) (value : Value) (w : World σ) : World σ :=
  match scope.owner? with
  | some index => w.modifyTable index fun t => { t with vars := t.vars.put key value }
  | none => w

/-- Binds variables one after the other. -/
def extend (scope : Scope) (vars : Vars) (w : World σ) : World σ :=
  vars.foldl (fun w (key, value) => w.set scope key value) w

/-- Binds a name of a table to a new future, and answers its index. -/
def addFuture (index : Nat) (name : String) (job : Job) (w : World σ) : Nat × World σ :=
  let future := w.futures.size
  let w := { w with futures := w.futures.push { name, progress := .pending job } }
  (future, w.modifyTable index fun t => { t with futures := t.futures.put name future })

/-- Sets how far a future has come. -/
def setProgress (future : Nat) (progress : Progress) (w : World σ) : World σ :=
  { w with futures := w.futures.modify future fun f => { f with progress } }

/-- Records the result of a task. -/
def record (task : Task) (result : TaskResult) (w : World σ) : World σ :=
  { w with recorded := w.recorded.push (task, result) }

/-- The jobs that pending futures can still bring about. -/
def pendingWeight (w : World σ) : Nat := w.futures.toList.foldr (fun f sum => f.weight + sum) 0

/-- The futures of a table by name, in the order of registration. -/
def futuresOf (w : World σ) (index : Nat) : Dict Nat := (w.table index).futures

end World

/-- How a process ended, if it could be started. -/
inductive ProcessOutcome
  | notStarted (reason : String)
  /-- The exit status, none if a signal ended the process, and what it wrote. -/
  | finished (status : Option Nat) (stdout stderr : String)

/-- The surroundings of a run with state `σ`: files, processes, and the
commands that are supplied from outside. -/
structure Host (σ : Type) where
  /-- The directory that relative names start from. -/
  baseDir : String
  /-- A path leads to a file or a directory. -/
  pathExists : σ → String → Bool
  /-- Runs a program, given as words, in a directory. -/
  runProcess : List String → String → σ → ProcessOutcome × σ
  /-- Runs a command that is supplied from outside. -/
  runExternal : Task → String → Vars → σ → Except CommandError TaskResult × σ

end PlaybookRunner
