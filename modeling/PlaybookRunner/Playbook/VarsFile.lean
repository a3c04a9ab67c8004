import PlaybookRunner.Error
import PlaybookRunner.Text.Path
import PlaybookRunner.Yaml.Json

/-!
# Files of variables

A file of variables holds a mapping, in JSON if its name says so and in YAML
otherwise. The variables come in the order of their names.
-/

namespace PlaybookRunner

/-- The text at a path, or why it cannot be read. -/
abbrev TextSource := String → Except String String

namespace VarsFile

/-- The tree that a file of a certain name holds. -/
def tree (path text : String) : Except Error Json :=
  if Path.extension? path == some "json" then (Json.read? text).elim (.error .json) .ok
  else (Yaml.json? text).elim (.error .yaml) .ok

/-- The variables of a value that a file holds. -/
def ofValue (path : String) : Value → Except Error Vars
  | .map vars => .ok vars
  | .nil => .ok []
  | other =>
    .error (.playbook path (.rule ("vars file must be a mapping, found " ++ other.typeName)))

/-- Loads the variables of a file. -/
def load (source : TextSource) (path : String) : Except Error Vars := do
  match source path with
  | .error reason => throw (.io reason)
  | .ok text => ofValue path (Value.ofJson (← tree path text).canonical)

end VarsFile

end PlaybookRunner
