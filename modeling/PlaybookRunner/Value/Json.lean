import PlaybookRunner.Json.Printer
import PlaybookRunner.Json.Reader
import PlaybookRunner.Json.Record
import PlaybookRunner.Value

/-!
# Values as JSON

A value has a plain tree, in which a result is one object of its data and its
two flags, and a record tree, in which a result keeps its three parts. Two
readers go back: one by the kind of the tree, one that tries the kinds of
value in turn.
-/

namespace PlaybookRunner.Value

/-- A double as a number of a tree, `null` when it is not finite. -/
def floatTree (x : Float) : Json := if x.isFinite then .float x else .null

mutual

/-- The plain tree of a value, keys ascending. -/
def toJson : Value → Json
  | nil => .null
  | bool b => .bool b
  | int n => .int n.toInt
  | float x => floatTree x
  | string s => .string s
  | list items => .array (itemsToJson items)
  | map fields => .object (Dict.sorted (fieldsToJson fields))
  | result changed failed data =>
    .object (((Dict.sorted (fieldsToJson data)).putSorted "changed" (.bool changed)).putSorted
      "failed" (.bool failed))

/-- The plain trees of some items. -/
def itemsToJson : List Value → List Json
  | [] => []
  | v :: rest => toJson v :: itemsToJson rest

/-- The plain trees of some bindings. -/
def fieldsToJson : List (String × Value) → List (String × Json)
  | [] => []
  | (key, v) :: rest => (key, toJson v) :: fieldsToJson rest

end

mutual

/-- The record tree of a value, keys in their own order. -/
def toRecord : Value → Json
  | nil => .null
  | bool b => .bool b
  | int n => .int n.toInt
  | float x => floatTree x
  | string s => .string s
  | list items => .array (itemsToRecord items)
  | map fields => .object (fieldsToRecord fields)
  | result changed failed data =>
    .object [("changed", .bool changed), ("failed", .bool failed),
      ("data", .object (fieldsToRecord data))]

/-- The record trees of some items. -/
def itemsToRecord : List Value → List Json
  | [] => []
  | v :: rest => toRecord v :: itemsToRecord rest

/-- The record trees of some bindings. -/
def fieldsToRecord : List (String × Value) → List (String × Json)
  | [] => []
  | (key, v) :: rest => (key, toRecord v) :: fieldsToRecord rest

end

/-- The text of a value in a message or a template: nothing for nil, a text as
it is, the plain tree of a list, a map or a result. -/
def display : Value → String
  | nil => ""
  | bool b => if b then "true" else "false"
  | int n => toString n.toInt
  | float x => Decimal.plainText x
  | string s => s
  | other => other.toJson.compact

mutual

/-- The value of a canonical tree, by the kind of the tree. A whole number
beyond the words with sign becomes a double. -/
def ofJson : Json → Value
  | .null => nil
  | .bool b => bool b
  | .int n => if Decimal.fitsWord n then int (Int64.ofInt n) else float (Float.ofInt n)
  | .float x => float x
  | .string s => string s
  | .array items => list (ofJsonItems items)
  | .object fields => map (ofJsonFields fields)

/-- The values of some items. -/
def ofJsonItems : List Json → List Value
  | [] => []
  | j :: rest => ofJson j :: ofJsonItems rest

/-- The values of some fields. -/
def ofJsonFields : List (String × Json) → List (String × Value)
  | [] => []
  | (key, j) :: rest => (key, ofJson j) :: ofJsonFields rest

end

/-- A tree read as nil. -/
def nilOf? : Json → Option Value
  | .null => some nil
  | _ => none

/-- A tree read as a truth value. -/
def boolOf? : Json → Option Value
  | .bool b => some (bool b)
  | _ => none

/-- A tree read as a whole number. -/
def intOf? : Json → Option Value
  | .int n => if Decimal.fitsWord n then some (int (Int64.ofInt n)) else none
  | _ => none

/-- A tree read as a double, which takes every number. -/
def floatOf? : Json → Option Value
  | .int n => some (float (Float.ofInt n))
  | .float x => some (float x)
  | _ => none

/-- A tree read as a text. -/
def stringOf? : Json → Option Value
  | .string s => some (string s)
  | _ => none

/-- The first kind of scalar that takes a tree. -/
def scalarOf (j : Json) : Value :=
  (nilOf? j <|> boolOf? j <|> intOf? j <|> floatOf? j <|> stringOf? j).getD nil

mutual

/-- The value of a tree in any order, as the first kind that takes it. The
pairs of an object become a map in the order of the text. -/
def decode : Json → Value
  | .array items => list (decodeItems items)
  | .object fields => map (Dict.ofPairs (decodeFields fields))
  | j => scalarOf j

/-- The values of some items. -/
def decodeItems : List Json → List Value
  | [] => []
  | j :: rest => decode j :: decodeItems rest

/-- The values of some fields. -/
def decodeFields : List (String × Json) → List (String × Value)
  | [] => []
  | (key, j) :: rest => (key, decode j) :: decodeFields rest

end

end PlaybookRunner.Value

namespace PlaybookRunner.Vars

/-- Variables as a tree, in their order. -/
def toJson (vars : Vars) : Json := .object (Value.fieldsToRecord vars)

/-- The variables of a tree. -/
def ofJson? : Json → Option Vars
  | .object fields => some (Dict.ofPairs (Value.decodeFields fields))
  | _ => none

end PlaybookRunner.Vars
