import PlaybookRunner.Shell.Builtins

/-!
# Running shell scripts

Commands run in order; a pipe runs its first command to the end and gives its
output to the second. The depth of the work is bounded, and a script that goes
beyond is given up.
-/

namespace PlaybookRunner.Shell

namespace Work

/-- A word for a channel that another channel is to follow. -/
def targetOf (s : State) (word : String) : Option Target :=
  match word with
  | "1" => some s.output
  | "2" => some s.errors
  | "-" => some .nowhere
  | word => (s.others.find? fun (channel, _) => toString channel == word).map Prod.snd

/-- Sets where a channel leads. -/
def setTarget (channel : Nat) (target : Target) : Work Unit :=
  modify fun s =>
    if channel == 2 then { s with errors := target }
    else if channel == 1 then { s with output := target }
    else { s with others := (channel, target) :: s.others }

/-- Opens a redirection; answers whether that was possible. -/
def redirect (run : Run) (r : Redirect) : Work Bool := do
  match r with
  | .document _ index => do
    let word := (← get).documents[index]?.getD []
    let text := Expansion.textOf (← Expansion.ofParts run word)
    modify fun s => { s with input := Bytes.ofText text }
    return true
  | .duplicate channel word => do
    let name ← Expansion.text run word
    match targetOf (← get) name with
    | some target => do
      setTarget channel target
      return true
    | none => do
      if channel != 0 then complain (name ++ ": Bad file descriptor")
      return channel == 0
  | .file channel mode word => do
    let path ← Expansion.text run word
    let s ← get
    match mode with
    | .read =>
      match s.files.read s.dir path with
      | .ok content => do
        set { s with input := content }
        return true
      | .error fault => do
        complain ("cannot open " ++ path ++ ": " ++
          (if fault == .missing then "No such file" else fault.words))
        return false
    | mode =>
      match s.files.writable s.dir path with
      | .ok place => do
        let files := match mode, s.files.at? place with
          | .append, some _ => s.files
          | _, _ => s.files.setContent place []
        set { s with files }
        setTarget channel (.file place)
        return true
      | .error fault => do
        complain ("cannot create " ++ path ++ ": " ++
          (if fault == .missing then "Directory nonexistent" else fault.words))
        return false

/-- Opens redirections in order up to the first that fails. -/
def redirectAll (run : Run) : List Redirect → Work Bool
  | [] => return true
  | r :: rest => do
    if ← redirect run r then redirectAll run rest else return false

/-- The redirections change the input. -/
def readsInput (redirects : List Redirect) : Bool :=
  redirects.any fun
    | .document .. => true
    | .file _ .read _ => true
    | _ => false

/-- Runs a part under redirections, which are undone afterwards. -/
def redirected (run : Run) (redirects : List Redirect) (x : Work Unit) : Work Unit := do
  let before ← get
  let ending ← outcome (do if ← redirectAll run redirects then x else setStatus 2)
  modify fun s => { s with
    output := before.output, errors := before.errors, others := before.others,
    input := if readsInput redirects then before.input else s.input }
  match ending with
  | .ok () => return ()
  | .error e => throw e

/-- Ends the shell when a command has failed that nothing tests. -/
def checkStrict : Work Unit := do
  let s ← get
  if s.strict && !s.tested && s.status != 0 then throw (.exit s.status)

/-- Runs a part whose status is tested. -/
def testing (x : Work Unit) : Work Unit := do
  let before := (← get).tested
  modify fun s => { s with tested := true }
  let ending ← outcome x
  modify fun s => { s with tested := before }
  match ending with
  | .ok () => return ()
  | .error e => throw e

/-- Gives variables back the values that they had, or takes them away. -/
def restored (vars : Dict String) (frame : List (String × Option String)) : Dict String :=
  frame.foldl (fun vars (name, value) =>
    match value with
    | some value => vars.put name value
    | none => vars.filter fun (other, _) => other != name) vars

/-- Runs a function: its arguments take the place of those of the script, and
the variables that it makes its own are as before after it. -/
def callFunction (run : Run) (body : Node) (args : List String) : Work Nat := do
  let before ← get
  set { before with args, frames := [] :: before.frames, loops := 0 }
  let ending ← outcome (run body)
  modify fun s => { s with
    args := before.args, frames := before.frames, loops := before.loops,
    vars := restored s.vars (s.frames.headD []) }
  match ending with
  | .ok () => return (← get).status
  | .error (.returned status) => return status
  | .error e => throw e

/-- Starts a program in the environment of the shell and some settings. -/
def startProgram (run : Run) (settings : List (String × String)) (words : List String) :
    Work Nat := do
  let environment ← environment
  Launch.settled (← Launch.program run (environment.extend settings) words)

/-- Runs a part under assignments, which are undone afterwards. -/
def underSettings (settings : List (String × String)) (x : Work Nat) : Work Nat := do
  let before ← get
  for (name, value) in settings do
    assign "" name value
  let ending ← outcome x
  modify fun s => { s with
    vars := restored s.vars (settings.map fun (name, _) => (name, before.vars.get? name)) }
  match ending with
  | .ok status => return status
  | .error e => throw e

/-- The commands of the shell before which assignments are not undone. -/
def lasting : List String :=
  [":", ".", "break", "continue", "eval", "exec", "exit", "export", "readonly", "return", "set",
    "shift", "trap", "unset"]

/-- Runs the words of a simple command. -/
def runWords (run : Run) (settings : List (String × String)) (words : List String) :
    Work Nat := do
  match words with
  | [] => return 0
  | name :: args =>
    match (← get).functions.get? name with
    | some body => underSettings settings (callFunction run body args)
    | none =>
      match Builtin.find? run (startProgram run settings) name with
      | some builtin =>
        if lasting.contains name then
          for (name, value) in settings do
            assign "" name value
          builtin args
        else underSettings settings (builtin args)
      | none => startProgram run settings words

/-- The values of assignments. -/
def assignments (run : Run) (list : List (String × Word)) : Work (List (String × String)) :=
  list.mapM fun (name, word) => do return (name, ← Expansion.text run word)

/-- Shows a command that is about to run, if commands are shown. -/
def trace (settings : List (String × String)) (words : List String) : Work Unit := do
  let s ← get
  if s.traced then
    let texts := settings.map (fun (name, value) => name ++ "=" ++ value) ++ words
    send s.errors (Bytes.ofText ("+ " ++ " ".intercalate texts ++ "\n"))

/-- Runs a simple command. -/
def simple (run : Run) (line : Nat) (settings : List (String × Word)) (words : List Word)
    (redirects : List Redirect) : Work Unit := do
  modify fun s => { s with line, answered := 0 }
  let texts ← Expansion.allWords run words
  match texts with
  | [] => do
    for (name, word) in settings do
      let value ← Expansion.text run word
      trace [(name, value)] []
      assign "" name value
    setStatus (← get).answered
    redirected run redirects (pure ())
  | ["exec"] =>
    if ← redirectAll run redirects then setStatus 0 else throw (.exit 2)
  | texts => do
    let values ← assignments run settings
    trace values texts
    redirected run redirects do setStatus (← runWords run values texts)
  checkStrict

/-- Goes on after a round of a loop, or leaves it. -/
def afterRound (ending : Except Leave Unit) (next : Work Unit) : Work Unit := do
  match ending with
  | .ok () => next
  | .error (.breakLoop levels) => if levels > 1 then throw (.breakLoop (levels - 1)) else return ()
  | .error (.nextRound levels) => if levels > 1 then throw (.nextRound (levels - 1)) else next
  | .error e => throw e

/-- Runs the body of a loop. -/
def looping (x : Work Unit) : Work (Except Leave Unit) := do
  let before := (← get).loops
  modify fun s => { s with loops := before + 1 }
  let ending ← outcome x
  modify fun s => { s with loops := before }
  return ending

/-- Runs the body of a repetition for every word. -/
def eachWord (run : Run) (name : String) (body : Node) : List String → Work Unit
  | [] => return ()
  | word :: rest => do
    setVar name word
    afterRound (← looping (run body)) (eachWord run name body rest)

/-- The first branch with a pattern that matches a text. -/
def selectBranch (run : Run) (text : String) : List (List Word × Node) → Work Unit
  | [] => setStatus 0
  | (patterns, body) :: rest => do
    let fields ← patterns.mapM fun word =>
      return Expansion.patternOf (← Expansion.ofParts run word)
    if fields.any fun pattern => pattern.matches text.toList then do
      setStatus 0
      run body
    else selectBranch run text rest

/-- Runs a command, given how the commands inside it run. -/
def step (run : Run) : Node → Work Unit
  | .nothing => return ()
  | .simple line settings words redirects => simple run line settings words redirects
  | .sequence first second => do
    run first
    run second
  | .conjunction first second => do
    testing (run first)
    if (← get).status == 0 then run second
  | .disjunction first second => do
    testing (run first)
    if (← get).status != 0 then run second
  | .negation body => do
    testing (run body)
    setStatus (if (← get).status == 0 then 1 else 0)
  | .pipeline first second => do
    let bytes ← captured (inSubshell (run first))
    let before := (← get).input
    modify fun s => { s with input := bytes }
    let ending ← outcome (inSubshell (run second))
    modify fun s => { s with input := before }
    match ending with
    | .ok () => checkStrict
    | .error e => throw e
  | .background body => do
    inSubshell (run body)
    setStatus 0
  | .group body redirects => redirected run redirects (run body)
  | .subshell body redirects => do
    redirected run redirects (inSubshell (run body))
    checkStrict
  | .choice condition yes no redirects =>
    redirected run redirects do
      testing (run condition)
      if (← get).status == 0 then do
        setStatus 0
        run yes
      else do
        setStatus 0
        run no
  | .loop negated condition body redirects =>
    redirected run redirects do
      let before := (← get).status
      testing (run condition)
      if ((← get).status == 0) != negated then do
        afterRound (← looping (run body)) (run (.loop negated condition body []))
      else setStatus before
  | .each name words body redirects =>
    redirected run redirects do
      let texts ← match words with
        | some words => Expansion.allWords run words
        | none => pure (← get).args
      setStatus 0
      eachWord run name body texts
  | .select subject branches redirects =>
    redirected run redirects do
      selectBranch run (← Expansion.text run subject) branches
  | .define name body => do
    modify fun s => { s with functions := s.functions.put name body }
    setStatus 0

end Work

/-- Runs a command with bounded depth. -/
def runWithin : Nat → Run
  | 0, _ => throw .exhausted
  | bound + 1, node => Work.step (runWithin bound) node

/-- The greatest depth of the work of a script. -/
def depthLimit : Nat := 20000

end PlaybookRunner.Shell
