import PlaybookRunner.Json.Described
import PlaybookRunner.Text.Case
import PlaybookRunner.Yaml.Data
import PlaybookRunner.Yaml.Json

/-!
# Flags

A flag is written as a truth value, a number or one of some words.
-/

namespace PlaybookRunner

namespace Yaml.Data

/-- What data is: its kind, and its content if it is a scalar. -/
def brief : Data → String
  | scalar .null => "unit value"
  | scalar (.float x) => Json.briefFloat x
  | scalar content => content.toJson.brief
  | sequence _ => "sequence"
  | mapping _ => "map"
  | tagged .. => "enum"

/-- The text of a key, which a message calls by a name. -/
def keyOf (wanted : String) (key : Data) : Except String String :=
  match key.text? with
  | some text => .ok text
  | none => .error ("invalid type: " ++ key.untagged.brief ++ ", expected " ++ wanted)

mutual

/-- The tree of data, or where it has none. -/
def tree : Data → Except String Json
  | scalar content => .ok content.toJson
  | sequence items => (itemTrees items).map .array
  | mapping pairs => (pairTrees "a string key" pairs).map fun fields => .object (Dict.sorted fields)
  | tagged .. => .error "invalid type: enum, expected any valid JSON value"

/-- The trees of some items. -/
def itemTrees : List Data → Except String (List Json)
  | [] => .ok []
  | item :: rest => do
    let item ← tree item
    let rest ← itemTrees rest
    return item :: rest

/-- The fields of some pairs. -/
def pairTrees (wanted : String) : List (Data × Data) → Except String (List (String × Json))
  | [] => .ok []
  | (key, value) :: rest => do
    let key ← keyOf wanted key
    let value ← tree value
    let rest ← pairTrees "a string" rest
    return (key, value) :: rest

end

end Yaml.Data

namespace Flag

/-- The flag that a word stands for. -/
def ofWord? (word : String) : Option Bool :=
  if ["yes", "true", "on", "1"].contains word then some true
  else if ["no", "false", "off", "0", ""].contains word then some false
  else none

/-- The flag of a tree. -/
def ofJson : Json → Except String Bool
  | .bool b => .ok b
  | .string s =>
    match ofWord? (Text.lower s) with
    | some b => .ok b
    | none => .error ("invalid boolean string: " ++ s)
  | .int n => if Decimal.fitsWord n then .ok (n != 0) else .error "invalid boolean number"
  | .float _ => .error "invalid boolean number"
  | .null => .ok false
  | other => .error ("invalid boolean value: " ++ other.described)

/-- The flag of data. -/
def ofData (data : Yaml.Data) : Except String Bool := data.tree.bind ofJson

end Flag

end PlaybookRunner
