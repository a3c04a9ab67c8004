import PlaybookRunner.Report.Reporter

/-!
# The console report

A line for every event, after the seconds that have passed. A result shows as a
label; the result of a process shows in short when it fits on the line.
-/

namespace PlaybookRunner.Console

/-- What is shown, and how. -/
structure Settings where
  /-- Parameters and whole results are shown. -/
  showOutput : Bool := false
  /-- The error that ended the run is shown. -/
  debug : Bool := false
  color : Bool := false
deriving DecidableEq, Repr

/-- A line of the report. -/
inductive Line
  /-- The first line, which names the start of the run. -/
  | heading
  /-- A marker and a text. -/
  | event (marker : Char) (text : String)
deriving DecidableEq, Repr

/-- The text of a line, given the start and the seconds that have passed. -/
def Line.text (start elapsed : String) : Line → String
  | heading => "== tasks @ " ++ start
  | event marker text => elapsed ++ " " ++ String.singleton marker ++ " " ++ text

/-- A style of a terminal, by its codes. -/
inductive Style
  | alarm
  | failure
  | change
  | success
deriving DecidableEq, Repr

/-- The codes of a style. -/
def Style.codes : Style → String
  | alarm => "31"
  | failure => "1;31"
  | change => "33"
  | success => "32"

/-- The sequence that starts a style. -/
def Style.start (style : Style) : List Char := '\x1b' :: '[' :: style.codes.toList ++ ['m']

/-- The sequence that ends every style. -/
def reset : List Char := ['\x1b', '[', '0', 'm']

/-- Starts a style again wherever the text itself ends all styles. -/
def resumed (start : List Char) : List Char → List Char
  | [] => []
  | c :: rest =>
    match reset.isPrefixOf? (c :: rest) with
    | some _ => c :: '[' :: '0' :: 'm' :: start ++ resumed start (rest.drop 3)
    | none => c :: resumed start rest
termination_by cs => cs.length

/-- A text in a style. -/
def styled (settings : Settings) (style : Style) (text : String) : String :=
  if settings.color then
    String.ofList (style.start ++ resumed style.start text.toList ++ reset)
  else text

/-- The label of a result. -/
def label (settings : Settings) (r : TaskResult) : String :=
  if r.failed then styled settings .failure "Failed"
  else if r.changed then styled settings .change "Changed"
  else styled settings .success "OK"

/-- Variables on one line. -/
def inlineVars (vars : Vars) : String :=
  " ".intercalate (vars.map fun (key, value) => key ++ "=" ++ value.display)

/-- The number of bytes from which an output no longer fits on a line. -/
def inlineLimit : Nat := 60

/-- A text on one line: a space stands for every line break. -/
def onOneLine (s : String) : String := s.map fun c => if c == '\n' then ' ' else c

/-- A whole number among values. -/
def int? : Value → Option Int64
  | .int n => some n
  | _ => none

/-- The result of a process in short, if it is one and fits on a line. -/
def processText? (r : TaskResult) : Option String := do
  let rc ← (r.get? "rc").bind int?
  let stdout ← (r.get? "stdout").bind Value.text?
  let stderr ← (r.get? "stderr").bind Value.text?
  if rc == 0 && stdout.isEmpty && stderr.isEmpty then return "OK"
  else if stderr.isEmpty && stdout.utf8ByteSize < inlineLimit then
    return s!"rc: {rc.toInt}, stdout: \"" ++ onOneLine stdout ++ "\""
  else none

/-- The lines of a result. -/
def resultLines (settings : Settings) (r : TaskResult) : List Line :=
  let labelLine := Line.event '*' (label settings r ++ ":")
  match processText? r with
  | some text => [labelLine, .event ' ' (Text.trimmed text)]
  | none =>
    if r.data.isEmpty then []
    else if settings.showOutput then
      labelLine :: r.data.map fun (key, value) => .event ' ' (key ++ ": " ++ value.display)
    else labelLine :: (r.message?.toList.map (Line.event ' '))

/-- The lines of an event. -/
def lines (settings : Settings) : Event → List Line
  | .startTasks => [.heading]
  | .finishTasks => [.event '=' "All tasks to finish"]
  | .startHandlers => [.event '+' "Running any handlers"]
  | .finishHandlers => [.event '=' "All handlers to finish"]
  | .finishAll => [.event '=' "All finish"]
  | .startTask task name _ params =>
    .event '-' (if task.isDeferred then name ++ " &" else name) ::
      (if settings.showOutput then
        [.event ' ' (task.command ++ ": " ++ inlineVars params)] else [])
  | .finishTask _ (some result) => resultLines settings result
  | .finishTask _ none => []
  | .ended (some error) =>
    if settings.debug then
      [.event '!' (styled settings .alarm ("Run aborted: " ++ error.message))] else []
  | .ended none => []

/-- The console report as a reporter. -/
def reporter {ρ : Type} (settings : Settings) : Reporter Line ρ := .ofLines (lines settings)

/-- Milliseconds as seconds, at the right of seven places. -/
def elapsedText (milliseconds : Nat) : String :=
  let fraction := toString (1000 + milliseconds % 1000)
  let text := toString (milliseconds / 1000) ++ "." ++ String.ofList (fraction.toList.drop 1)
  String.ofList (List.replicate (7 - text.length) ' ') ++ text

end PlaybookRunner.Console
