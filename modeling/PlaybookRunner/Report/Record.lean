import PlaybookRunner.Report.Moment
import PlaybookRunner.Report.Reporter

/-!
# The record of a run

A record counts the tasks that were started and keeps an entry for each of the
first five hundred. A finished task settles the latest open entry of a like task.
-/

namespace PlaybookRunner

/-- A task that was started. -/
structure TaskEntry where
  name : String
  command : String
  args : String
  vars : Vars
  /-- Seconds from the start of the run until the task finished. -/
  finished : Option Float := none
  result : Option TaskResult := none
deriving Inhabited

/-- The summary of a run. -/
structure RunRecord where
  hostname : String := ""
  start : Option Moment := none
  /-- Seconds until the tasks had finished. -/
  tasksFinished : Option Float := none
  /-- Seconds until the run had finished. -/
  finished : Option Float := none
  /-- The number of started tasks, those without an entry included. -/
  taskCount : Nat := 0
  tasks : Array TaskEntry := #[]
deriving Inhabited

/-- A record that is being made. -/
structure Recorder where
  record : RunRecord := {}
  /-- The tasks with an open entry, the latest first, and the places of the entries. -/
  pending : List (Task × Nat) := []
deriving Inhabited

/-- Where a record is made: the host, the start of the run, and the seconds
that have passed. -/
structure Recorder.Setting where
  hostname : String := ""
  start : Moment := default
  elapsed : Float := 0
deriving Inhabited

namespace Recorder

/-- The largest number of entries. -/
def entryLimit : Nat := 500

/-- The first pair with a property, and the list without it. -/
def takeFirst {α : Type} (p : α → Bool) : List α → Option (α × List α)
  | [] => none
  | a :: rest =>
    if p a then some (a, rest)
    else (takeFirst p rest).map fun (found, others) => (found, a :: others)

/-- The seconds that have passed, unless the run has not started. -/
def elapsed? (setting : Setting) (r : Recorder) : Option Float :=
  r.record.start.map fun _ => setting.elapsed

/-- Opens an entry for a task, as long as there is room. -/
def open_ (task : Task) (name args : String) (vars : Vars) (r : Recorder) : Recorder :=
  let record := { r.record with taskCount := r.record.taskCount + 1 }
  if record.tasks.size < entryLimit then
    { record := { record with tasks := record.tasks.push { name, command := task.command, args, vars } },
      pending := (task, record.tasks.size) :: r.pending }
  else { r with record }

/-- Settles the latest open entry of a like task. -/
def settle (setting : Setting) (task : Task) (result : TaskResult) (r : Recorder) : Recorder :=
  match takeFirst (fun (open_, _) => open_.same task) r.pending with
  | none => r
  | some ((_, place), pending) =>
    let tasks := r.record.tasks.modify place fun entry =>
      { entry with result := some result, finished := r.elapsed? setting }
    { record := { r.record with tasks }, pending }

/-- The recorder after an event. -/
def step (setting : Setting) (r : Recorder) : Event → Recorder
  | .startTasks =>
    { record := { hostname := setting.hostname, start := some setting.start } }
  | .finishTasks => { r with record := { r.record with tasksFinished := r.elapsed? setting } }
  | .finishAll => { r with record := { r.record with finished := r.elapsed? setting } }
  | .startTask task name args params => r.open_ task name args params
  | .finishTask task (some result) => r.settle setting task result
  | .finishTask _ none => r
  | .startHandlers => r
  | .finishHandlers => r
  | .ended _ => r

/-- The record as a reporter, which writes nothing. -/
def reporter {ω : Type} (setting : Setting) : Reporter ω Recorder :=
  fun event r => ([], r.step setting event)

end Recorder

/-- A duration as a tree. -/
def RunRecord.duration : Option Float → Json
  | some seconds => .float seconds
  | none => .null

/-- An entry as a tree. -/
def TaskEntry.toJson (e : TaskEntry) : Json :=
  .object [("name", .string e.name), ("command", .string e.command), ("args", .string e.args),
    ("vars", (Value.map e.vars).toRecord), ("finished_secs", RunRecord.duration e.finished),
    ("result", (e.result.map TaskResult.toRecord).getD .null)]

/-- A record as a tree. -/
def RunRecord.toJson (r : RunRecord) : Json :=
  .object [("hostname", .string r.hostname),
    ("start", (r.start.map fun m => Json.string m.text).getD .null),
    ("tasks_finish_secs", duration r.tasksFinished), ("finish_secs", duration r.finished),
    ("task_count", .int r.taskCount), ("tasks", .array (r.tasks.toList.map TaskEntry.toJson))]

end PlaybookRunner
