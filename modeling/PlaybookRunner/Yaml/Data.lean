import PlaybookRunner.Value.Json
import PlaybookRunner.Yaml.Literal
import PlaybookRunner.Yaml.Node

/-!
# Data of a document

The nodes of a document with the meaning of their scalars. No key of a mapping
occurs twice. A tag of the document's own stays around what it marks.
-/

namespace PlaybookRunner.Yaml

/-- A node and what it stands for. -/
inductive Data
  | scalar (content : Literal)
  | sequence (items : List Data)
  | mapping (pairs : List (Data × Data))
  | tagged (tag : String) (content : Data)
deriving Inhabited

namespace Data

/-- The data of a text. -/
def text (s : String) : Data := scalar (.string s)

mutual

/-- The same data; the order of the pairs of a mapping is immaterial. -/
def same : Data → Data → Bool
  | scalar a, scalar b => a.same b
  | sequence as, sequence bs => sameItems as bs
  | mapping as, mapping bs => as.length == bs.length && samePairs as bs
  | tagged s a, tagged t b => s == t && same a b
  | _, _ => false

/-- Items are the same one by one. -/
def sameItems : List Data → List Data → Bool
  | [], [] => true
  | a :: as, b :: bs => same a b && sameItems as bs
  | _, _ => false

/-- Every pair of the first list has its like in the second. -/
def samePairs : List (Data × Data) → List (Data × Data) → Bool
  | [], _ => true
  | (key, value) :: rest, bs =>
    bs.any (fun (k, v) => same key k && same value v) && samePairs rest bs

end

/-- No key occurs twice. -/
def keysDistinct : List (Data × Data) → Bool
  | [] => true
  | (key, _) :: rest => rest.all (fun (k, _) => !same key k) && keysDistinct rest

/-- Data under a tag, if it is one of the document's own. -/
def mark (tag : Option String) (data : Data) : Data :=
  match ownTag? tag with
  | some name => tagged name data
  | none => data

mutual

/-- The data of a node. -/
def ofNode? : Node → Option Data
  | .scalar tag isPlain text =>
    (Literal.ofScalar? tag isPlain text).map fun content => mark tag (scalar content)
  | .sequence tag items => (ofItems? items).map fun items => mark tag (sequence items)
  | .mapping tag pairs =>
    match ofPairs? pairs with
    | some pairs => if keysDistinct pairs then some (mark tag (mapping pairs)) else none
    | none => none

/-- The data of some items. -/
def ofItems? : List Node → Option (List Data)
  | [] => some []
  | item :: rest => do
    let item ← ofNode? item
    let rest ← ofItems? rest
    return item :: rest

/-- The data of some pairs. -/
def ofPairs? : List (Node × Node) → Option (List (Data × Data))
  | [] => some []
  | (key, value) :: rest => do
    let key ← ofNode? key
    let value ← ofNode? value
    let rest ← ofPairs? rest
    return (key, value) :: rest

end

/-- The data of a text. -/
def read? (s : String) : Option Data := (Node.read? s).bind ofNode?

/-- The kind of data, as messages name it. -/
def kind : Data → String
  | scalar .null => "null"
  | scalar (.bool _) => "a boolean"
  | scalar (.int _) => "a number"
  | scalar (.float _) => "a number"
  | scalar (.string _) => "a string"
  | sequence _ => "a list"
  | mapping _ => "a mapping"
  | tagged .. => "a tagged value"

/-- The value of a scalar. A whole number beyond the words with sign becomes a
double. -/
def literalValue : Literal → Value
  | .null => .nil
  | .bool b => .bool b
  | .int n => if Decimal.fitsWord n then .int (Int64.ofInt n) else .float (Float.ofInt n)
  | .float x => .float x
  | .string s => .string s

/-- The text of a key that has a certain value. -/
def keyText (data : Data) (value : Value) : String :=
  match data with
  | scalar (.string s) => s
  | scalar .null => ""
  | _ => value.display

mutual

/-- The value of data, tags dropped. -/
def toValue : Data → Value
  | scalar content => literalValue content
  | sequence items => .list (itemValues items)
  | mapping pairs => .map (Dict.ofPairs (pairValues pairs))
  | tagged _ content => toValue content

/-- The values of some items. -/
def itemValues : List Data → List Value
  | [] => []
  | item :: rest => toValue item :: itemValues rest

/-- The values of some pairs by the texts of their keys. -/
def pairValues : List (Data × Data) → List (String × Value)
  | [] => []
  | (key, value) :: rest => (keyText key (toValue key), toValue value) :: pairValues rest

end

/-- The variables that a mapping binds. -/
def vars (pairs : List (Data × Data)) : Vars := Dict.ofPairs (pairValues pairs)

/-- The text of data in the place of a scalar. -/
def scalarText (data : Data) : String := keyText data (toValue data)

/-- What a mapping has under a key that is a plain text. -/
def field? (pairs : List (Data × Data)) (key : String) : Option Data :=
  match pairs with
  | [] => none
  | (scalar (.string k), value) :: rest => if k == key then some value else field? rest key
  | _ :: rest => field? rest key

/-- Data without the tags around it. -/
def untagged : Data → Data
  | tagged _ content => untagged content
  | data => data

/-- The text of data that is a text under whatever tags. -/
def text? (data : Data) : Option String :=
  match data.untagged with
  | scalar (.string s) => some s
  | _ => none

end Data

end PlaybookRunner.Yaml
