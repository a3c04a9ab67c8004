import PlaybookRunner.Error

/-!
# The mock command

A command for trying out playbooks: it takes any parameters, and these say what
it reports.
-/

namespace PlaybookRunner.Mock

/-- The name of the command. -/
def name : String := "mock"

/-- A parameter is there and true. -/
def isSet (params : Vars) (key : String) : Bool := ((params.get? key).map Value.truthy).getD false

/-- What the command reports: a change if asked to, and a value if given one. -/
def produced (params : Vars) : TaskResult :=
  let result : TaskResult := { changed := isSet params "changed" }
  match params.get? "value" with
  | some value => result.withField "value" value
  | none => result

/-- Runs the command; it fails if asked to. -/
def run (params : Vars) : Except CommandError TaskResult :=
  if isSet params "fail" then .error (.failed "mock failure" (some (produced params)))
  else .ok (produced params)

end PlaybookRunner.Mock
