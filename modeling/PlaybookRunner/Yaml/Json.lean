import PlaybookRunner.Value.Json
import PlaybookRunner.Yaml.Literal
import PlaybookRunner.Yaml.Node

/-!
# Documents as JSON

A document can stand for a JSON tree. Its keys are the texts of scalars as
they are written; a repeated key stays for the tree to settle. A tag of the
document's own has no place in a tree.
-/

namespace PlaybookRunner.Yaml

/-- The tree of a scalar's content. -/
def Literal.toJson : Literal → Json
  | .null => .null
  | .bool b => .bool b
  | .int n => .int n
  | .float x => Value.floatTree x
  | .string s => .string s

namespace Node

/-- The text of a scalar. -/
def text? : Node → Option String
  | .scalar _ _ text => some text
  | _ => none

mutual

/-- The tree of a node. -/
def toJson? : Node → Option Json
  | .scalar tag isPlain text =>
    match ownTag? tag with
    | some _ => none
    | none => (Literal.ofScalar? tag isPlain text).map Literal.toJson
  | .sequence tag items =>
    match ownTag? tag with
    | some _ => none
    | none => (itemTrees? items).map .array
  | .mapping tag pairs =>
    match ownTag? tag with
    | some _ => none
    | none => (pairTrees? pairs).map .object

/-- The trees of some items. -/
def itemTrees? : List Node → Option (List Json)
  | [] => some []
  | item :: rest => do
    let item ← toJson? item
    let rest ← itemTrees? rest
    return item :: rest

/-- The fields of some pairs. -/
def pairTrees? : List (Node × Node) → Option (List (String × Json))
  | [] => some []
  | (key, value) :: rest => do
    let key ← text? key
    let value ← toJson? value
    let rest ← pairTrees? rest
    return (key, value) :: rest

end

end Node

/-- The tree of a document. -/
def json? (text : String) : Option Json := (Node.read? text).bind Node.toJson?

end PlaybookRunner.Yaml
