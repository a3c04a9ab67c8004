import PlaybookRunner.Json.Printer
import PlaybookRunner.Json.Reader
import PlaybookRunner.Report.Moment
import PlaybookRunner.Report.Reporter
import PlaybookRunner.Text.Lines

/-!
# The chunk report

Each event is one JSON object on a line of its own, after a line with the
number of its bytes. A stream of such lines can be read back; the numbers are
not checked, and a blank line in place of one is skipped.
-/

namespace PlaybookRunner

/-- An event of the stream. Durations are in seconds. -/
inductive Chunk
  | start (time : Moment)
  | finish
  | startHandlers
  | finishHandlers
  | startTask (deferred : Bool) (name command args : String) (vars : Vars) (delta : Float)
  | finishTask (delta : Float) (result : TaskResult)

namespace Chunk

/-- The name of the phase that an event belongs to. -/
def phase : Chunk → String
  | start _ => "start"
  | finish => "finish"
  | startHandlers => "start_handlers"
  | finishHandlers => "finish_handlers"
  | startTask .. => "start_task"
  | finishTask .. => "finish_task"

/-- How a task runs, in a word. -/
def kindWord (deferred : Bool) : String := if deferred then "async" else "sync"

/-- What an event carries besides its phase. -/
def fields : Chunk → List (String × Json)
  | start time => [("time", .string time.text)]
  | finish => []
  | startHandlers => []
  | finishHandlers => []
  | startTask deferred name command args vars delta =>
    [("type", .string (kindWord deferred)), ("name", .string name), ("command", .string command),
      ("args", .string args), ("vars", (Value.map vars).toRecord), ("delta", .float delta)]
  | finishTask delta result => [("delta", .float delta), ("result", result.toRecord)]

/-- An event as a tree. -/
def toJson (c : Chunk) : Json := .object (("phase", .string c.phase) :: c.fields)

/-- An event as it stands in the stream. -/
def framed (c : Chunk) : String :=
  let body := c.toJson.compact
  toString body.utf8ByteSize ++ "\n" ++ body ++ "\n"

/-- The chunks of an event of a run. -/
def ofEvent (started : Moment) (delta : Float) : Event → List Chunk
  | .startTasks => [start started]
  | .finishTasks => [finish]
  | .startHandlers => [startHandlers]
  | .finishHandlers => [finishHandlers]
  | .startTask task name args params =>
    [startTask task.isDeferred name task.command args params delta]
  | .finishTask _ (some result) => [finishTask delta result]
  | .finishTask _ none => []
  | .finishAll => []
  | .ended _ => []

/-- The chunk report as a reporter. -/
def reporter {ρ : Type} (started : Moment) (delta : Float) : Reporter Chunk ρ :=
  .ofLines (ofEvent started delta)

/-! ## Reading -/

/-- The number of a tree. -/
def numberOf? : Json → Option Float
  | .int n => some (Float.ofInt n)
  | .float x => some x
  | _ => none

/-- How a task runs, from its word; the word may also stand as a lone key. -/
def kindOf? : Json → Option Bool
  | .string "sync" => some false
  | .string "async" => some true
  | .object [("sync", .null)] => some false
  | .object [("async", .null)] => some true
  | .object [("sync", .object [])] => some false
  | .object [("async", .object [])] => some true
  | _ => none

/-- The result of a task from its tree; the data may be missing. -/
def resultOf? (j : Json) : Option TaskResult := do
  let parts ← j.parts? ["changed", "failed", "data"]
  return {
    changed := ← Json.required? Json.bool? parts "changed"
    failed := ← Json.required? Json.bool? parts "failed"
    data := ← Json.optional? Vars.ofJson? [] parts "data" }

/-- The start of a report from its parts. -/
def startOf? (parts : Dict Json) : Option Chunk := do
  return start (← (← Json.required? Json.text? parts "time") |> Moment.read?)

/-- The start of a task from its parts. -/
def startTaskOf? (parts : Dict Json) : Option Chunk := do
  return startTask (← Json.required? kindOf? parts "type")
    (← Json.required? Json.text? parts "name") (← Json.required? Json.text? parts "command")
    (← Json.required? Json.text? parts "args") (← Json.required? Vars.ofJson? parts "vars")
    (← Json.required? numberOf? parts "delta")

/-- The end of a task from its parts. -/
def finishTaskOf? (parts : Dict Json) : Option Chunk := do
  return finishTask (← Json.required? numberOf? parts "delta")
    (← Json.required? resultOf? parts "result")

/-- The event of a phase and its record. -/
def ofRecord? (phase : String) (record : Json) : Option Chunk :=
  match phase with
  | "start" => (record.parts? ["time"]).bind startOf?
  | "finish" => some finish
  | "start_handlers" => some startHandlers
  | "finish_handlers" => some finishHandlers
  | "start_task" =>
    (record.parts? ["type", "name", "command", "args", "vars", "delta"]).bind startTaskOf?
  | "finish_task" => (record.parts? ["delta", "result"]).bind finishTaskOf?
  | _ => none

/-- The event of a tree: the phase is one of the fields, or the first item. -/
def ofJson? : Json → Option Chunk
  | .object fields => do
    let parts ← (Json.object fields).parts? ["phase"]
    let phase ← Json.required? Json.text? parts "phase"
    ofRecord? phase (.object (fields.filter fun (key, _) => key != "phase"))
  | .array (.string phase :: items) => ofRecord? phase (.array items)
  | _ => none

/-- The events of the lines of a stream. -/
def readLines : List String → Option (List Chunk)
  | [] => some []
  | size :: rest =>
    if Text.allBlank size.toList then readLines rest
    else
      match rest with
      | [] => none
      | body :: rest => do
        let chunk ← (Json.read? body).bind ofJson?
        return chunk :: (← readLines rest)

/-- The events of a stream. -/
def readAll? (stream : String) : Option (List Chunk) := readLines (Text.lines stream)

end Chunk

end PlaybookRunner
