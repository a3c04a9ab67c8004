import PlaybookRunner.Error
import PlaybookRunner.Task

/-!
# Events of a run

A run tells its progress as a list of events. Every task that starts also
finishes; a deferred task finishes twice, without a result when it has been
dispatched and with one when it has settled.
-/

namespace PlaybookRunner

/-- One step of a run's progress. -/
inductive Event
  | startTasks
  | finishTasks
  | startHandlers
  | finishHandlers
  | finishAll
  /-- A task starts, with its expanded name and arguments and its parameters. -/
  | startTask (task : Task) (name args : String) (params : Vars)
  /-- A task finishes; there is no result when it has only been dispatched. -/
  | finishTask (task : Task) (result : Option TaskResult)
  /-- The run is over. -/
  | ended (error : Option Error)

end PlaybookRunner
