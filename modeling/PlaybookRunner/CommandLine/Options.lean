import PlaybookRunner.Settings.Basic

/-!
# Options

The arguments of the program: one playbook and some options before or after
it. They are read in order, so that a wish for help counts unless a fault
comes before it. What has to fit together is looked at last.
-/

namespace PlaybookRunner

/-- The arguments of the program. -/
structure Options where
  playbook : String
  /-- Variables to set, as `key=value`. -/
  overrides : List String := []
  showOutput : Bool := false
  debug : Bool := false
  /-- The chunk report is wanted. -/
  json : Bool := false
  format : Option OutputFormat := none
  /-- The file of settings. -/
  settingsPath : Option String := none
  noColor : Bool := false
  /-- How often more words were asked for. -/
  verbose : Nat := 0
deriving Repr, Inhabited

namespace Options

/-- Why the program ends without a run. -/
inductive Ending
  /-- The arguments do not fit the program. -/
  | misuse
  | help
  | version
deriving DecidableEq, Repr

/-- The exit status for an ending. -/
def Ending.exitCode : Ending → Nat
  | misuse => 2
  | help => 0
  | version => 0

/-- The arguments read so far. -/
structure Draft where
  playbook : Option String := none
  overrides : List String := []
  showOutput : Bool := false
  debug : Bool := false
  json : Bool := false
  format : Option OutputFormat := none
  settingsPath : Option String := none
  noColor : Bool := false
  verbose : Nat := 0

/-- An option without a value. -/
inductive Switch
  | showOutput
  | debug
  | json
  | noColor
  | verbose
  | help
  | version

/-- An option with a value. -/
inductive Choice
  | override
  | format
  | settingsPath

/-- The switch of a long name. -/
def longSwitch? (name : String) : Option Switch :=
  List.lookup name
    [("output", .showOutput), ("debug", .debug), ("json", .json), ("no-color", .noColor),
      ("verbose", .verbose), ("help", .help), ("version", .version)]

/-- The choice of a long name. -/
def longChoice? (name : String) : Option Choice :=
  List.lookup name [("set", .override), ("format", .format), ("config", .settingsPath)]

/-- The switch of a letter. -/
def shortSwitch? (letter : Char) : Option Switch :=
  List.lookup letter
    [('o', .showOutput), ('d', .debug), ('v', .verbose), ('h', .help), ('V', .version)]

/-- The choice of a letter. -/
def shortChoice? (letter : Char) : Option Choice :=
  List.lookup letter [('s', .override), ('c', .settingsPath)]

/-- The largest count of a switch that may be repeated. -/
def countLimit : Nat := 255

namespace Draft

/-- Turns a switch on. Only the count of words may go on. -/
def turnOn (p : Draft) : Switch → Except Ending Draft
  | .showOutput => if p.showOutput then .error .misuse else .ok { p with showOutput := true }
  | .debug => if p.debug then .error .misuse else .ok { p with debug := true }
  | .json => if p.json then .error .misuse else .ok { p with json := true }
  | .noColor => if p.noColor then .error .misuse else .ok { p with noColor := true }
  | .verbose => .ok { p with verbose := min (p.verbose + 1) countLimit }
  | .help => .error .help
  | .version => .error .version

/-- Makes a choice. Only variables may be set again and again. -/
def choose (p : Draft) (choice : Choice) (value : String) : Except Ending Draft :=
  match choice with
  | .override => .ok { p with overrides := p.overrides ++ [value] }
  | .format =>
    match p.format, OutputFormat.read value with
    | none, .ok format => .ok { p with format := some format }
    | _, _ => .error .misuse
  | .settingsPath =>
    if p.settingsPath.isSome || value == "" then .error .misuse
    else .ok { p with settingsPath := some value }

/-- Takes the name of the playbook. -/
def take (p : Draft) (path : String) : Except Ending Draft :=
  if p.playbook.isSome || path == "" then .error .misuse
  else .ok { p with playbook := some path }

/-- Reads a group of letters. The last may be a choice that waits for its value. -/
def letters (p : Draft) : List Char → Except Ending (Draft × Option Choice)
  | [] => .ok (p, none)
  | c :: rest =>
    match shortSwitch? c, shortChoice? c with
    | some switch, _ =>
      match p.turnOn switch with
      | .ok p => p.letters rest
      | .error e => .error e
    | none, some choice =>
      match rest with
      | [] => .ok (p, some choice)
      | '=' :: value => (p.choose choice (String.ofList value)).map (·, none)
      | value => (p.choose choice (String.ofList value)).map (·, none)
    | none, none => .error .misuse

/-- Reads a long option. A choice without a value waits for it. -/
def long (p : Draft) (cs : List Char) : Except Ending (Draft × Option Choice) :=
  let name := String.ofList (cs.takeWhile fun c => c != '=')
  let value := cs.dropWhile fun c => c != '='
  match longSwitch? name, longChoice? name with
  | some switch, _ =>
    if value.isEmpty then (p.turnOn switch).map (·, none) else .error .misuse
  | none, some choice =>
    if value.isEmpty then .ok (p, some choice)
    else (p.choose choice (String.ofList value.tail)).map (·, none)
  | none, none => .error .misuse

/-- Reads one argument; the answer may be a choice that waits for its value. -/
def argument (p : Draft) (arg : String) : Except Ending (Draft × Option Choice) :=
  match arg.toList with
  | '-' :: '-' :: name => p.long name
  | ['-'] => (p.take arg).map (·, none)
  | '-' :: cs => p.letters cs
  | _ => (p.take arg).map (·, none)

/-- An argument is no value for an option that waits for one. -/
def isOption (arg : String) : Bool :=
  match arg.toList with
  | '-' :: _ :: _ => true
  | _ => false

/-- Reads the arguments, given the choice that waits for its value. -/
def arguments (p : Draft) (waiting : Option Choice) : List String → Except Ending Draft
  | [] => if waiting.isSome then .error .misuse else .ok p
  | arg :: rest =>
    match waiting with
    | some choice =>
      if isOption arg then .error .misuse
      else
        match p.choose choice arg with
        | .ok p => p.arguments none rest
        | .error e => .error e
    | none =>
      if arg == "--" then rest.foldlM take p
      else
        match p.argument arg with
        | .ok (p, waiting) => p.arguments waiting rest
        | .error e => .error e

/-- Completes the arguments from the environment. A playbook is needed, and the
chunk report is not to be chosen twice. -/
def complete (p : Draft) (environment : Dict String) : Except Ending Options := do
  let settingsPath ←
    match p.settingsPath, environment.get? "PLAYRUN_CONFIG" with
    | some path, _ => pure (some path)
    | none, some "" => throw .misuse
    | none, found => pure found
  match p.playbook with
  | none => throw .misuse
  | some playbook =>
    if p.json && p.format.isSome then throw .misuse
    return {
      playbook, overrides := p.overrides, showOutput := p.showOutput, debug := p.debug,
      json := p.json, format := p.format, settingsPath, noColor := p.noColor,
      verbose := p.verbose }

end Draft

/-- Reads the arguments of the program. -/
def read (environment : Dict String) (args : List String) : Except Ending Options := do
  (← Draft.arguments {} none args).complete environment

/-- How many words are asked for, up to three. -/
def verbosity (o : Options) : Nat := min o.verbose 3

/-- The settings with what the options demand. -/
def apply (o : Options) (s : Settings) : Settings :=
  { s with
    showOutput := o.showOutput || s.showOutput
    debug := o.debug || s.debug
    noColor := o.noColor || s.noColor
    format := if o.json then .chunks else o.format.getD s.format }

end Options

end PlaybookRunner
