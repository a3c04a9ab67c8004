import PlaybookRunner.Machine.Programs
import PlaybookRunner.Shell.Arithmetic
import PlaybookRunner.Shell.Field
import PlaybookRunner.Shell.Reader

/-!
# The state of a shell

A shell has variables and positional arguments, and sends what it writes to
buffers or files. A subshell starts from a copy of the state; files and buffers
are shared.
-/

namespace PlaybookRunner.Shell

/-- Where a channel leads. -/
inductive Target
  | buffer (index : Nat)
  | file (place : Place)
  /-- The channel is closed. -/
  | nowhere
deriving Inhabited

/-- The state of a shell. -/
structure State where
  files : Files := []
  dir : Place := []
  input : Bytes := []
  buffers : Array Bytes := #[[], []]
  output : Target := .buffer 0
  errors : Target := .buffer 1
  /-- Where further channels lead, by number. -/
  others : List (Nat × Target) := []
  vars : Dict String := []
  /-- The names of variables that programs see. -/
  exported : List String := []
  /-- The names of variables that keep their value. -/
  fixed : List String := []
  /-- The name of the script and its arguments. -/
  name : String := "sh"
  args : List String := []
  functions : Dict Node := []
  /-- For every running function, the last one first, what the variables were
  that it has made its own. -/
  frames : List (List (String × Option String)) := []
  documents : List Word := []
  /-- The number of loops that are running around. -/
  loops : Nat := 0
  status : Nat := 0
  /-- The status of the last script whose output was taken. -/
  answered : Nat := 0
  line : Nat := 1
  /-- The number of the process. -/
  pid : Nat := 4096
  /-- The shell ends when a command fails. -/
  strict : Bool := false
  /-- The status of the running command is being tested. -/
  tested : Bool := false
  /-- A parameter that is not set ends the shell. -/
  demanding : Bool := false
  /-- Commands are shown before they run. -/
  traced : Bool := false
  /-- A script for the end of the shell. -/
  farewell : Option String := none
deriving Inhabited

/-- The characters at which words are split. -/
def State.separators (s : State) : List Char := ((s.vars.get? "IFS").getD " \t\n").toList

/-- Why the course of a script is left. -/
inductive Leave
  | exit (status : Nat)
  /-- A signal ended the shell of a number. -/
  | killed (pid signal : Nat)
  | breakLoop (levels : Nat)
  | nextRound (levels : Nat)
  | returned (status : Nat)
  /-- The script runs for too long. -/
  | exhausted
deriving Inhabited

/-- A part of the work of a shell. -/
abbrev Work := ExceptT Leave (StateM State)

namespace Work

/-- Runs a part to its end and answers how it ended. -/
def outcome {α : Type} (x : Work α) : Work (Except Leave α) := ExceptT.mk do return .ok (← x.run)

/-- Sends bytes to where a channel leads. -/
def send (target : Target) (bytes : Bytes) : Work Unit :=
  modify fun s =>
    match target with
    | .buffer index => { s with buffers := s.buffers.modify index (· ++ bytes) }
    | .file place => { s with files := s.files.appendContent place bytes }
    | .nowhere => s

/-- Writes a line of the shell's own to the errors. -/
def complain (text : String) : Work Unit := do
  let s ← get
  send s.errors (Bytes.ofText (s.name ++ s!": {s.line}: " ++ text ++ "\n"))

/-- Sets the status of the last command. -/
def setStatus (status : Nat) : Work Unit := modify fun s => { s with status }

/-- Ends the shell with a complaint. -/
def abandon {α : Type} (text : String) : Work α := do
  complain text
  throw (.exit 2)

/-- Sets a variable. -/
def setVar (name value : String) : Work Unit :=
  modify fun s => { s with vars := s.vars.put name value }

/-- Assigns a variable in the name of a command; some variables keep their value. -/
def assign (command name value : String) : Work Unit := do
  if (← get).fixed.contains name then abandon (command ++ name ++ ": is read only")
  setVar name value

/-- Runs a program that works by itself, in the state of the shell. -/
def program (p : Program) (args : List String) (environment : Dict String) : Work Nat := do
  let s ← get
  let (status, process) :=
    (p args).run { files := s.files, dir := s.dir, environment, input := s.input }
  set { s with files := process.files, input := process.input }
  for (channel, bytes) in process.written do
    match channel with
    | .output => send s.output bytes
    | .errors => send s.errors bytes
  return status

/-- The environment that a program gets. -/
def environment : Work (Dict String) := do
  let s ← get
  return s.vars.filter fun (name, _) => s.exported.contains name

/-- Runs a part and gives back what it wrote to the output. -/
def captured (x : Work Unit) : Work Bytes := do
  let s ← get
  set { s with buffers := s.buffers.push [], output := .buffer s.buffers.size }
  let ending ← outcome x
  let after ← get
  set { after with
    buffers := after.buffers.extract 0 s.buffers.size, output := s.output }
  match ending with
  | .ok () => return after.buffers.getD s.buffers.size []
  | .error e => throw e

/-- Runs a part in a copy of the state: of what it does only files, input, what
it wrote and its status remain. -/
def inSubshell (x : Work Unit) : Work Unit := do
  let s ← get
  let ending ← outcome x
  let after ← get
  set { s with files := after.files, input := after.input, buffers := after.buffers }
  match ending with
  | .ok () => setStatus after.status
  | .error (.exit status) => setStatus status
  | .error (.returned status) => setStatus status
  | .error (.breakLoop _) => setStatus after.status
  | .error (.nextRound _) => setStatus after.status
  | .error e => throw e

end Work

end PlaybookRunner.Shell
