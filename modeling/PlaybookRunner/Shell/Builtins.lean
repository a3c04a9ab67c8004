import PlaybookRunner.Shell.Launch
import PlaybookRunner.Text.Blank

/-!
# Commands of the shell itself

These commands change the shell: its directory, its variables, or the course of
the script. Some programs are also commands of the shell, with messages of its own.
-/

namespace PlaybookRunner.Shell

/-- A command of the shell: from its arguments to its status. -/
abbrev Builtin := List String → Work Nat

namespace Builtin

/-- The number that an argument gives, or the one that stands in its place. -/
def number (name : String) (fallback : Nat) : List String → Work Nat
  | [] => return fallback
  | arg :: _ =>
    if !arg.isEmpty && arg.toList.all Char.isDigit then
      return Printf.digitsValue 10 arg.toList
    else do
      Work.complain (name ++ ": Illegal number: " ++ arg)
      throw (.exit 2)

/-- Ends the shell. -/
def exit : Builtin := fun args => do
  throw (.exit ((← number "exit" (← get).status args) % 256))

/-- Returns from a function. -/
def return_ : Builtin := fun args => do
  throw (.returned ((← number "return" (← get).status args) % 256))

/-- Leaves loops, if there are any around. -/
def break_ : Builtin := fun args => do
  let levels ← number "break" 1 args
  if (← get).loops == 0 then return 0
  throw (.breakLoop levels)

/-- Goes to the next round of a loop, if there is one around. -/
def continue_ : Builtin := fun args => do
  let levels ← number "continue" 1 args
  if (← get).loops == 0 then return 0
  throw (.nextRound levels)

/-- Changes the directory. -/
def cd : Builtin := fun args => do
  let s ← get
  let path := match args.filter (· != "--") with
    | [] => (s.vars.get? "HOME").getD "/"
    | "-" :: _ => (s.vars.get? "OLDPWD").getD (s.dir.path)
    | path :: _ => path
  match s.files.lookup s.dir path with
  | .ok (place, .directory) => do
    set { s with dir := place }
    Work.setVar "OLDPWD" s.dir.path
    Work.setVar "PWD" place.path
    if args == ["-"] then Work.send s.output (Bytes.ofText (place.path ++ "\n"))
    return 0
  | _ => do
    Work.complain ("cd: can't cd to " ++ path)
    return 2

/-- The name in an argument of a declaration, and the value if it has one. -/
def declared (arg : String) : String × Option String :=
  match Text.breakChar '=' arg.toList with
  | some (name, value) => (String.ofList name, some (String.ofList value))
  | none => (arg, none)

/-- Goes through the arguments of a declaration: notes the name of every one and
assigns the values that are given. -/
def declare (command : String) (note : String → Work Unit) : Builtin := fun args => do
  for arg in args do
    let (name, value) := declared arg
    match value with
    | some value => Work.assign (command ++ ": ") name value
    | none => pure ()
    note name
  return 0

/-- Makes variables visible to programs. -/
def export_ : Builtin := declare "export" fun name =>
  modify fun s => { s with exported := s.exported ++ [name] }

/-- Makes variables keep their value. -/
def readonly : Builtin := declare "readonly" fun name =>
  modify fun s => { s with fixed := s.fixed ++ [name] }

/-- Gives a function variables of its own. -/
def local_ : Builtin := fun args => do
  for arg in args do
    let s ← get
    match s.frames with
    | [] => Work.abandon "local: not in a function"
    | frame :: frames =>
      let name := (declared arg).1
      set { s with frames := ((name, s.vars.get? name) :: frame) :: frames }
  declare "local" (fun _ => pure ()) args

/-- Removes variables. -/
def unset : Builtin := fun args => do
  modify fun s => { s with
    vars := s.vars.filter fun (name, _) => !args.contains name
    functions := s.functions.filter fun (name, _) => !(args.contains name && args.contains "-f") }
  return 0

/-- Drops the first arguments. -/
def shift : Builtin := fun args => do
  let count ← number "shift" 1 args
  if count > (← get).args.length then
    Work.complain "shift: can't shift that many"
    throw (.exit 2)
  modify fun s => { s with args := s.args.drop count }
  return 0

/-- Sets options and arguments. -/
def set_ : Builtin := fun args => do
  match ← setOptions args with
  | some args => modify fun s => { s with args }
  | none => pure ()
  return 0
where
  /-- Sets options up to the first argument that is none. -/
  setOptions : List String → Work (Option (List String))
    | [] => return none
    | "--" :: rest => return some rest
    | "-o" :: name :: rest => do
      setNamed "-o" true name
      setOptions rest
    | "+o" :: name :: rest => do
      setNamed "+o" false name
      setOptions rest
    | arg :: rest => do
      match arg.toList with
      | '-' :: options => do
        for option in options do
          setOption true option
        setOptions rest
      | '+' :: options => do
        for option in options do
          setOption false option
        setOptions rest
      | _ => return some (arg :: rest)
  /-- Sets an option by its name. -/
  setNamed (sign : String) (on : Bool) (name : String) : Work Unit := do
    match name with
    | "errexit" => setOption on 'e'
    | "nounset" => setOption on 'u'
    | "xtrace" => setOption on 'x'
    | name =>
      if ["noglob", "verbose", "noclobber", "noexec", "allexport", "notify"].contains name then
        pure ()
      else Work.abandon ("set: Illegal option " ++ sign ++ " " ++ name)
  /-- Sets an option by its letter. -/
  setOption (on : Bool) (letter : Char) : Work Unit := do
    match letter with
    | 'e' => modify fun s => { s with strict := on }
    | 'u' => modify fun s => { s with demanding := on }
    | 'x' => modify fun s => { s with traced := on }
    | _ => pure ()

/-- A text without the separators of white space at its start. -/
def withoutBlanks (separators : List Char) (cs : List Char) : List Char :=
  cs.dropWhile fun c => separators.contains c && Text.isBlank c

/-- What stands after a separator and the white space around it. -/
def afterSeparator (separators : List Char) (cs : List Char) : List Char :=
  match withoutBlanks separators cs with
  | c :: rest => if separators.contains c then withoutBlanks separators rest else c :: rest
  | [] => []

/-- Reads a line of the input into variables; the last takes all that is left. -/
def read : Builtin := fun args => do
  let names := args.filter fun (arg : String) => arg.toList.head? != some '-'
  let s ← get
  let line := s.input.takeWhile (· != 10)
  let found := line.length < s.input.length
  set { s with input := s.input.drop (line.length + 1) }
  assign s.separators names (withoutBlanks s.separators (Bytes.decode line))
  return (if found then 0 else 1)
where
  assign (separators : List Char) : List String → List Char → Work Unit
    | [], _ => return ()
    | [name], cs => Work.setVar name (String.ofList (withoutBlanks separators cs.reverse).reverse)
    | name :: rest, cs => do
      let word := cs.takeWhile fun c => !separators.contains c
      Work.setVar name (String.ofList word)
      assign separators rest (afterSeparator separators (cs.drop word.length))

/-- The number of a signal. -/
def signalNumber (name : String) : Option Nat :=
  match name with
  | "KILL" => some 9
  | "TERM" => some 15
  | "HUP" => some 1
  | "INT" => some 2
  | "QUIT" => some 3
  | "USR1" => some 10
  | "USR2" => some 12
  | "PIPE" => some 13
  | "ALRM" => some 14
  | "ABRT" => some 6
  | "SEGV" => some 11
  | name => if !name.isEmpty && name.toList.all Char.isDigit then
      some (Printf.digitsValue 10 name.toList) else none

/-- A signal's name without the start that may be left out. -/
def signalName (name : String) : String :=
  if "SIG".toList.isPrefixOf name.toList then String.ofList (name.toList.drop 3) else name

/-- Sends a signal to a shell that is running. -/
def kill : Builtin := fun args => do
  let (signal, targets) := match args with
    | "-s" :: name :: rest => (signalNumber (signalName name), rest)
    | arg :: rest =>
      match arg.toList with
      | '-' :: name => (signalNumber (signalName (String.ofList name)), rest)
      | _ => (some 15, arg :: rest)
    | [] => (some 15, [])
  match signal, targets with
  | some signal, target :: _ => do
    let pid := Printf.digitsValue 10 target.toList
    if target.toList.all Char.isDigit && 4096 < pid && pid ≤ (← get).pid then
      if signal == 0 then return 0 else throw (.killed pid signal)
    else
      Work.complain "kill: No such process"
      return 1
  | _, _ => do
    Work.complain "kill: Illegal option"
    return 2

/-- Runs a text as a script in the shell itself, in the name of a command. -/
def runText (run : Run) (command text : String) : Work Nat := do
  Work.setStatus 0
  Launch.runText run command text
  return (← get).status

/-- Runs the script of a file in the shell itself. -/
def source (run : Run) : Builtin := fun args => do
  match args with
  | [] => return 0
  | path :: _ =>
    let s ← get
    match s.files.read s.dir path with
    | .ok content => runText run (path ++ ": ") content.text
    | .error fault =>
      Work.abandon (".: cannot open " ++ path ++ ": " ++
        (if fault == .missing then "No such file" else fault.words))

/-- Keeps a script for the end of the shell; a dash takes it away. -/
def trap : Builtin := fun args => do
  match args with
  | text :: conditions =>
    if conditions.contains "EXIT" || conditions.contains "0" then
      modify fun s => { s with farewell := if text == "-" || text == "" then none else some text }
  | [] => pure ()
  return 0

/-- Prints by a format, with the words of the shell for what is wrong. -/
def printf : Builtin := fun args => do
  match Printf.operands args with
  | [] => Work.abandon "printf: usage: printf format [arg ...]"
  | format :: args => do
    let p := Printf.printed format args
    Work.send (← get).output p.bytes
    for fault in p.faults do
      match fault.shellMessage? with
      | some message => Work.complain message
      | none => pure ()
    return if p.faults.any fun fault => fault matches .badDirective _ then 2
      else if p.faults.all fun fault => fault matches .excess _ then 0 else 1

/-- The commands of the shell that are programs as well. -/
def programs : Dict Program :=
  [("echo", TextTools.echoEscaped), ("true", Programs.still 0),
    ("false", Programs.still 1), (":", Programs.still 0), ("pwd", FileTools.pwd)]

/-- The names of the commands that change the shell. -/
def names : List String :=
  [":", ".", "[", "break", "cd", "command", "continue", "echo", "eval", "exec", "exit", "export",
    "false", "kill", "local", "printf", "pwd", "read", "readonly", "return", "set", "shift",
    "test", "trap", "true", "type", "umask", "unset", "wait"]

/-- Tells where names lead. -/
def where_ : Builtin := fun args => do
  let s ← get
  let mut status := 0
  for name in args do
    if names.contains name || (s.functions.get? name).isSome then
      Work.send s.output (Bytes.ofText (name ++ "\n"))
    else
      match Launch.find s.files s.dir name with
      | .failed _ => status := 127
      | _ =>
        let path := if name.toList.contains '/' then name else "/usr/bin/" ++ name
        Work.send s.output (Bytes.ofText (path ++ "\n"))
  return status

/-- Tells what names stand for. -/
def describe : Builtin := fun args => do
  let s ← get
  let mut status := 0
  for name in args do
    let said :=
      if Reading.reserved.contains name then some "a shell keyword"
      else if (s.functions.get? name).isSome then some "a shell function"
      else if names.contains name then some "a shell builtin"
      else
        match Launch.find s.files s.dir name with
        | .failed _ => none
        | _ => some (if name.toList.contains '/' then name else "/usr/bin/" ++ name)
    match said with
    | some said => Work.send s.output (Bytes.ofText (name ++ " is " ++ said ++ "\n"))
    | none =>
      Work.send s.output (Bytes.ofText (name ++ ": not found\n"))
      status := 127
  return status

/-- The command of the shell with a name. Programs are started by the rest of
the shell, which is given. -/
def find? (run : Run) (start : List String → Work Nat) (name : String) : Option Builtin :=
  match name with
  | "exit" => some exit
  | "return" => some return_
  | "break" => some break_
  | "continue" => some continue_
  | "cd" => some cd
  | "export" => some export_
  | "readonly" => some readonly
  | "local" => some local_
  | "unset" => some unset
  | "shift" => some shift
  | "set" => some set_
  | "read" => some read
  | "kill" => some kill
  | "eval" => some fun args => runText run "eval: " (" ".intercalate args)
  | "." => some (source run)
  | "wait" => some fun _ => return 0
  | "hash" => some fun _ => return 0
  | "jobs" => some fun _ => return 0
  | "ulimit" => some fun _ => return 0
  | "trap" => some trap
  | "printf" => some printf
  | "type" => some describe
  | "umask" => some fun args => do
    if args.isEmpty then Work.send (← get).output (Bytes.ofText "0022\n")
    return 0
  | "exec" => some fun args => do
    match args with
    | [] => return 0
    | name :: _ =>
      let s ← get
      match Launch.find s.files s.dir name with
      | .failed fault => do
        Work.complain ("exec: " ++ name ++ ": " ++
          (if fault == .missing then "not found" else fault.words))
        throw (.exit (if fault == .missing then 127 else 126))
      | _ => throw (.exit (← start args))
  | "command" => some fun args => do
    match args with
    | "-v" :: names => where_ names
    | args => start args
  | "test" => some (condition "test")
  | "[" => some fun args => do
    if args.getLast? == some "]" then condition "[" args.dropLast
    else
      Work.complain "[: missing ]"
      return 2
  | name => (programs.get? name).map fun p args => Work.program p args []
where
  condition (name : String) : Builtin := fun words => do
    let s ← get
    match Condition.holds { files := s.files, dir := s.dir } false words with
    | .ok true => return 0
    | .ok false => return 1
    | .error fault => do
      Work.complain (name ++ ": " ++ fault.shellMessage)
      return 2

end Builtin

end PlaybookRunner.Shell
