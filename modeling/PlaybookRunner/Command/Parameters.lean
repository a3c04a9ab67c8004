import PlaybookRunner.Command.Arguments
import PlaybookRunner.Json.Described
import PlaybookRunner.TaskResult

/-!
# Parameters by name

A command declares its parameters: each has a name, other names it answers to,
and a kind. The bound values are read in ascending order of the given names, so
the first of several faults is the one under the least name. Names that no
parameter answers to are passed over.
-/

namespace PlaybookRunner

/-- What a parameter takes. -/
inductive ParameterKind
  /-- A text; numbers and truth values are taken by their text, null is absence. -/
  | text
  /-- A list of texts; null is absence. -/
  | texts
  /-- One text or a list of texts. -/
  | conditions
deriving DecidableEq, Repr

/-- A parameter that was read. -/
inductive ParameterValue
  | text (value : Option String)
  | texts (value : Option (List String))
  | conditions (value : List String)

/-- A declared parameter. -/
structure Parameter where
  name : String
  aliases : List String := []
  kind : ParameterKind

namespace Parameter

/-- Reads an optional text. -/
def readText : Json → Except String (Option String)
  | .null => .ok none
  | .string s => .ok (some s)
  | .array items => .error ("expected a string, found " ++ (Json.array items).compact)
  | .object fields => .error ("expected a string, found " ++ (Json.object fields).compact)
  | scalar => .ok (some scalar.compact)

/-- Reads a list of texts. -/
def readTexts : List Json → Except String (List String)
  | [] => .ok []
  | .string s :: rest => (readTexts rest).map (s :: ·)
  | other :: _ => .error ("invalid type: " ++ other.brief ++ ", expected a string")

/-- Reads an optional list of texts. -/
def readList : Json → Except String (Option (List String))
  | .null => .ok none
  | .array items => (readTexts items).map some
  | other => .error ("invalid type: " ++ other.brief ++ ", expected a sequence")

/-- Reads one text or a list of texts. -/
def readConditions : Json → Except String (List String)
  | .string s => .ok [s]
  | .array items =>
    match readTexts items with
    | .ok texts => .ok texts
    | .error _ => .error "data did not match any variant of untagged enum OneOrMany"
  | _ => .error "data did not match any variant of untagged enum OneOrMany"

/-- Reads a parameter of a kind. -/
def readKind (kind : ParameterKind) (tree : Json) : Except String ParameterValue :=
  match kind with
  | .text => (readText tree).map .text
  | .texts => (readList tree).map .texts
  | .conditions => (readConditions tree).map .conditions

/-- The parameter that answers to a name. -/
def find? (declared : List Parameter) (name : String) : Option Parameter :=
  declared.find? fun p => p.name == name || p.aliases.contains name

/-- Reads given fields, in their order, into the values of declared parameters. -/
def readFields (declared : List Parameter) :
    Dict ParameterValue → List (String × Json) → Except String (Dict ParameterValue)
  | values, [] => .ok values
  | values, (name, tree) :: rest =>
    match find? declared name with
    | none => readFields declared values rest
    | some p =>
      if values.has p.name then .error s!"duplicate field `{p.name}`"
      else
        match readKind p.kind tree with
        | .error e => .error e
        | .ok value => readFields declared (values.put p.name value) rest

/-- Reads bound values into the values of declared parameters. -/
def readVars (declared : List Parameter) (vars : Vars) : Except String (Dict ParameterValue) :=
  match (Value.map vars).toJson with
  | .object fields => readFields declared [] fields
  | _ => .ok []

/-- The text of a parameter, if it was given. -/
def textOf (values : Dict ParameterValue) (name : String) : Option String :=
  match values.get? name with
  | some (.text value) => value
  | _ => none

/-- The list of texts of a parameter, if it was given. -/
def textsOf (values : Dict ParameterValue) (name : String) : Option (List String) :=
  match values.get? name with
  | some (.texts value) => value
  | _ => none

end Parameter

end PlaybookRunner
