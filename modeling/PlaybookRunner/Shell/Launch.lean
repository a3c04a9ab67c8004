import PlaybookRunner.Shell.Expansion

/-!
# Starting programs

A name leads to a shell, to a program of the machine, or to a script in a file.
-/

namespace PlaybookRunner.Shell

/-- What a name leads to. -/
inductive Found
  | shell
  | environment
  | program (program : Program)
  /-- A file with a script, which may name a shell in its first line. -/
  | script (content : String) (named : Bool)
  | failed (fault : FileFault)

namespace Launch

/-- The names of shells. -/
def shells : List String := ["sh", "dash", "bash"]

/-- What a name without slashes leads to. -/
def named (name : String) : Found :=
  if shells.contains name then .shell
  else if name == "env" then .environment
  else
    match Programs.table.get? name with
    | some program => .program program
    | none => .failed .missing

/-- The place is in a directory of programs. -/
def isProgramPlace (place : Place) : Bool := Programs.directories.contains place.dropLast

/-- The first line of a script names a shell. -/
def namesShell (content : String) : Bool :=
  let line := content.toList.takeWhile (· != '\n')
  let interpreter := String.ofList ((line.drop 2).takeWhile (· != ' '))
  let words := (Text.splitAtChar ' ' (line.drop 2)).map String.ofList
  shells.contains (FileTools.lastName interpreter) ||
    (words.getLast?.map fun w => shells.contains w).getD false

/-- What a name or a path leads to from a directory. -/
def find (files : Files) (dir : Place) (name : String) : Found :=
  if name == "" then .failed .missing
  else if !name.toList.contains '/' then named name
  else
    match files.resolve dir name with
    | .error fault => .failed fault
    | .ok place =>
      match files.at? place with
      | none => if isProgramPlace place then named (place.getLast?.getD "") else .failed .missing
      | some .directory => .failed .denied
      | some .sink => .failed .denied
      | some (.file _ false) =>
        if isProgramPlace place then named (place.getLast?.getD "") else .failed .denied
      | some (.file content true) =>
        let text := content.text
        if "#!".toList.isPrefixOf text.toList then
          (if namesShell text then .script text true else .failed .missing)
        else .script text false

/-- A script to run: its text, its name and its arguments. -/
structure Call where
  text : String
  name : String
  args : List String
  options : List Char := []

/-- Reads the options of a shell: a flag word may hold several letters. -/
def shellOptions : List String → List Char × List String
  | [] => ([], [])
  | arg :: rest =>
    match arg.toList with
    | '-' :: c :: more =>
      let (options, operands) := shellOptions rest
      (c :: more ++ options, operands)
    | _ => ([], arg :: rest)

/-- The script that the arguments of a shell ask for. -/
def shellCall (files : Files) (dir : Place) (input : Bytes) (args : List String) :
    Except String Call :=
  let (options, operands) := shellOptions args
  if options.contains 'c' then
    match operands with
    | [] => .error "sh: 0: -c requires an argument"
    | text :: [] => .ok { text, name := "sh", args := [], options }
    | text :: name :: args => .ok { text, name, args, options }
  else
    match operands with
    | [] => .ok { text := input.text, name := "sh", args := [], options }
    | path :: args =>
      match files.read dir path with
      | .ok content => .ok { text := content.text, name := path, args, options }
      | .error .missing => .error ("sh: 0: cannot open " ++ path ++ ": No such file")
      | .error fault => .error ("sh: 0: cannot open " ++ path ++ ": " ++ fault.words)

/-- Runs a text as a script in the shell itself; a complaint about it starts with
the name of the command that runs it. -/
def runText (run : Run) (command text : String) : Work Unit := do
  let script := Script.read text
  let documents := (← get).documents
  modify fun s => { s with documents := script.documents }
  let ending ← Work.outcome (run script.body)
  modify fun s => { s with documents }
  match ending, script.fault with
  | .ok (), none => return ()
  | .ok (), some fault => do
    modify fun s => { s with line := fault.line }
    Work.abandon (command ++ fault.message)
  | .error e, _ => throw e

/-- Runs a script in a shell of its own, and answers its status or the signal
that ended it. -/
def runCall (run : Run) (environment : Dict String) (call : Call) : Work (Nat ⊕ Nat) := do
  let outer ← get
  let pid := outer.pid + 1
  set ({
    files := outer.files, dir := outer.dir, input := outer.input, buffers := outer.buffers,
    output := outer.output, errors := outer.errors,
    vars := environment.put "PWD" outer.dir.path, exported := environment.keys, pid,
    name := call.name, args := call.args, strict := call.options.contains 'e',
    demanding := call.options.contains 'u', traced := call.options.contains 'x' } : State)
  let ending ← Work.outcome (runText run "" call.text)
  let ending ← farewell run ending
  let inner ← get
  set { outer with files := inner.files, input := inner.input, buffers := inner.buffers }
  match ending with
  | .ok () => return .inl inner.status
  | .error (.exit status) => return .inl status
  | .error (.returned status) => return .inl status
  | .error (.killed target signal) =>
    if target == pid then return .inr signal else throw (.killed target signal)
  | .error .exhausted => throw .exhausted
  | .error _ => return .inl inner.status
where
  /-- Runs the script for the end of the shell; the status stays what it was
  unless that script ends the shell with another. -/
  farewell (run : Run) (ending : Except Leave Unit) : Work (Except Leave Unit) := do
    let s ← get
    let again (status : Nat) (text : String) : Work (Except Leave Unit) := do
      set { s with farewell := none, status }
      match ← Work.outcome (runText run "" text) with
      | .ok () => return .error (.exit status)
      | .error e => return .error e
    match ending, s.farewell with
    | .ok (), some text => again s.status text
    | .error (.exit status), some text => again status text
    | ending, _ => return ending

/-- The word for a shell that a signal ended. -/
def signalWord (signal : Nat) : String :=
  match signal with
  | 9 => "Killed"
  | 15 => "Terminated"
  | 1 => "Hangup"
  | _ => ""

/-- The status of a command whose shell a signal may have ended. -/
def settled (ending : Nat ⊕ Nat) : Work Nat := do
  match ending with
  | .inl status => return status
  | .inr signal => do
    if signalWord signal != "" then
      Work.send (← get).errors (Bytes.ofText (signalWord signal ++ "\n"))
    return 128 + signal

/-- The assignments at the start of some words, and the words after them. -/
def leadingAssignments : List String → List (String × String) × List String
  | [] => ([], [])
  | word :: rest =>
    match Text.breakChar '=' word.toList with
    | some (name, value) =>
      if name.isEmpty then ([], word :: rest)
      else
        let (more, words) := leadingAssignments rest
        ((String.ofList name, String.ofList value) :: more, words)
    | none => ([], word :: rest)

/-- Runs what a name leads to, with arguments. -/
def start (run : Run) (environment : Dict String) (name : String) (args : List String) :
    Found → Work (Nat ⊕ Nat)
  | .shell => do
    let s ← get
    match shellCall s.files s.dir s.input args with
    | .ok call => runCall run environment call
    | .error message => do
      Work.send s.errors (Bytes.ofText (message ++ "\n"))
      return .inl 2
  | .script text _ => runCall run environment { text, name, args }
  | .program program => return .inl (← Work.program program args environment)
  | .environment => return .inl (← Work.program Programs.env args environment)
  | .failed .missing => do
    Work.complain (name ++ ": not found")
    return .inl 127
  | .failed fault => do
    Work.complain (name ++ ": " ++ fault.words)
    return .inl 126

/-- Starts a program by its name. The program that changes the environment
starts another one in turn. -/
def program (run : Run) (environment : Dict String) (words : List String) : Work (Nat ⊕ Nat) := do
  match words with
  | [] => return .inl 0
  | name :: args => do
    let s ← get
    match find s.files s.dir name with
    | .environment =>
      let (settings, words) := leadingAssignments (args.filter (· != "-i"))
      let given : Dict String := if args.contains "-i" then [] else environment
      let environment := given.extend settings
      match words with
      | [] => start run environment name [] .environment
      | inner :: args =>
        match find s.files s.dir inner with
        | .failed fault => do
          Work.send s.errors (Bytes.ofText ("env: '" ++ inner ++ "': " ++ fault.words ++ "\n"))
          return .inl (if fault == .missing then 127 else 126)
        | found => start run environment inner args found
    | found => start run environment name args found

end Launch

end PlaybookRunner.Shell
