import PlaybookRunner.Value.Json

/-!
# Task results

What a finished task reports: whether it changed something, whether it failed,
and data of the command's own.
-/

namespace PlaybookRunner

/-- The outcome of a task. -/
structure TaskResult where
  changed : Bool := false
  failed : Bool := false
  data : Vars := []
deriving Inhabited

namespace TaskResult

/-- A result that changed nothing and did not fail. -/
def ok : TaskResult := {}

/-- A result that changed something. -/
def ofChange : TaskResult := { changed := true }

/-- Binds a field of the data. -/
def withField (r : TaskResult) (key : String) (value : Value) : TaskResult :=
  { r with data := r.data.put key value }

/-- Sets the message. -/
def withMessage (r : TaskResult) (message : String) : TaskResult :=
  r.withField "msg" (.string message)

/-- A failed result with a message. -/
def ofFailure (message : String) : TaskResult := ({ failed := true } : TaskResult).withMessage message

/-- A field of the data. -/
def get? (r : TaskResult) (key : String) : Option Value := Dict.get? r.data key

/-- The message, if it is a text. -/
def message? (r : TaskResult) : Option String := (r.get? "msg").bind Value.text?

/-- The result as it is registered: the flags stand in its data as well. -/
def registered (r : TaskResult) : TaskResult :=
  (r.withField "Changed" (.bool r.changed)).withField "Failed" (.bool r.failed)

/-- The result as a value. -/
def toValue (r : TaskResult) : Value := .result r.changed r.failed r.data

/-- The plain tree of a result. -/
def toJson (r : TaskResult) : Json := r.toValue.toJson

/-- The record tree of a result. -/
def toRecord (r : TaskResult) : Json := r.toValue.toRecord

/-- Results that agree in flags and data. -/
def same (a b : TaskResult) : Bool := a.toValue.same b.toValue

end TaskResult

end PlaybookRunner
