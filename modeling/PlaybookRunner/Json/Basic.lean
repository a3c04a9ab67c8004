import PlaybookRunner.Dict

/-!
# JSON trees

A tree as it is read keeps the pairs of an object in the order of the text,
repeated keys included. In a canonical tree the keys of every object are
distinct and ascend.
-/

namespace PlaybookRunner

/-- A JSON tree. Whole numbers range over the words with and without sign. -/
inductive Json
  | null
  | bool (value : Bool)
  | int (value : Int)
  | float (value : Float)
  | string (text : String)
  | array (items : List Json)
  | object (fields : List (String × Json))
deriving Inhabited

namespace Json

mutual

/-- The canonical form: of equal keys the last wins, and keys ascend. -/
def canonical : Json → Json
  | array items => array (canonicalItems items)
  | object fields => object (Dict.sorted (canonicalFields fields))
  | other => other

/-- The canonical forms of the items of an array. -/
def canonicalItems : List Json → List Json
  | [] => []
  | item :: rest => canonical item :: canonicalItems rest

/-- The canonical forms of the values of an object. -/
def canonicalFields : List (String × Json) → List (String × Json)
  | [] => []
  | (key, value) :: rest => (key, canonical value) :: canonicalFields rest

end

end Json

end PlaybookRunner
