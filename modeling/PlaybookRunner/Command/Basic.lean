import PlaybookRunner.Command.Parameters
import PlaybookRunner.Error

/-!
# Commands and their binding

A command is bound from a name and parameters. A registry says which names are
known: the built-in ones, and names whose commands are supplied from outside.
-/

namespace PlaybookRunner

/-- The parameters of a command that starts a process. -/
structure ExecParams where
  /-- The command line. -/
  cmd : Option String := none
  /-- The words to run instead of those of the command line. -/
  argv : Option (List String) := none
  /-- The working directory. -/
  chdir : Option String := none
  /-- The command is skipped when this path exists. -/
  creates : Option String := none
  /-- The command is skipped unless this path exists. -/
  removes : Option String := none
deriving Inhabited

/-- A command ready to run. -/
inductive Command
  /-- Runs a program. -/
  | program (params : ExecParams)
  /-- Runs a command line through the shell. -/
  | shell (params : ExecParams)
  /-- Checks conditions. -/
  | check (conditions : List String) (message : Option String)
  /-- Reports a message or a variable. -/
  | debug (message path : Option String)
  /-- Binds variables. -/
  | setFact (facts : Vars)
  /-- A command supplied from outside. -/
  | external (name : String) (params : Vars)
deriving Inhabited

namespace Command

/-- The parameters of a process. -/
def execParameters : List Parameter :=
  [{ name := "cmd", aliases := [Arguments.rawKey], kind := .text },
    { name := "argv", kind := .texts }, { name := "chdir", kind := .text },
    { name := "creates", kind := .text }, { name := "removes", kind := .text }]

/-- The parameters of a check. -/
def checkParameters : List Parameter :=
  [{ name := "that", aliases := [Arguments.rawKey], kind := .conditions },
    { name := "msg", aliases := ["fail_msg"], kind := .text }]

/-- The parameters of a report. -/
def debugParameters : List Parameter :=
  [{ name := "msg", aliases := [Arguments.rawKey], kind := .text },
    { name := "var", kind := .text }]

/-- Binds the parameters of a process. -/
def bindExec (params : Vars) : Except String ExecParams :=
  (Parameter.readVars execParameters params).map fun values =>
    { cmd := Parameter.textOf values "cmd", argv := Parameter.textsOf values "argv",
      chdir := Parameter.textOf values "chdir", creates := Parameter.textOf values "creates",
      removes := Parameter.textOf values "removes" }

/-- Binds a check. -/
def bindCheck (params : Vars) : Except String Command :=
  match Parameter.readVars checkParameters params with
  | .error e => .error e
  | .ok values =>
    match values.get? "that" with
    | some (.conditions conditions) => .ok (check conditions (Parameter.textOf values "msg"))
    | _ => .error "missing field `that`"

/-- Binds a report. -/
def bindDebug (params : Vars) : Except String Command :=
  (Parameter.readVars debugParameters params).map fun values =>
    debug (Parameter.textOf values "msg") (Parameter.textOf values "var")

/-- Binds facts: the parameters as they come back from their tree. -/
def bindSetFact (params : Vars) : Except String Command :=
  match Value.decode (Value.map params).toJson with
  | .map facts => .ok (setFact facts)
  | _ => .ok (setFact [])

end Command

/-- Makes a command of parameters, or says what is wrong with them. -/
abbrev Binder := Vars → Except String Command

/-- The commands that are known, by name. -/
abbrev Registry := Dict Binder

namespace Registry

/-- The built-in commands. -/
def builtins : Registry :=
  [("command", fun params => (Command.bindExec params).map .program),
    ("shell", fun params => (Command.bindExec params).map .shell),
    ("assert", Command.bindCheck), ("debug", Command.bindDebug),
    ("set_fact", Command.bindSetFact)]

/-- Adds a command that is supplied from outside and takes any parameters. -/
def withExternal (r : Registry) (name : String) : Registry :=
  Dict.put r name fun params => .ok (.external name params)

/-- The known names in ascending order. -/
def names (r : Registry) : List String := (Dict.sorted r).keys

/-- Binds a command from parameters. -/
def bind (r : Registry) (name : String) (params : Vars) : Except BindError Command :=
  match Dict.get? r name with
  | none => .error (.unknownCommand name)
  | some binder =>
    match binder params with
    | .ok command => .ok command
    | .error message => .error (.invalidArgs name message)

end Registry

/-- The parameters of a call: those of its argument text, overlaid with its
structured arguments. -/
def bindParams (command args : String) (vars : Vars) : Except BindError Vars :=
  match Arguments.read? args with
  | none => .error (.invalidArgs command Arguments.unclosedMessage)
  | some params => .ok (params.extend vars)

end PlaybookRunner
