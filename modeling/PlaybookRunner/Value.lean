import PlaybookRunner.Decimal.Reader
import PlaybookRunner.Dict
import PlaybookRunner.Text.Blank

/-!
# Dynamic values

The values of variables, of expressions and of task results. A task result is
itself a value, so that a template can look into a registered result.
-/

namespace PlaybookRunner

/-- A dynamically typed value. The pairs of a map or a result have distinct keys. -/
inductive Value
  | nil
  | bool (value : Bool)
  | int (value : Int64)
  | float (value : Float)
  | string (text : String)
  | list (items : List Value)
  | map (fields : List (String × Value))
  | result (changed failed : Bool) (data : List (String × Value))
deriving Inhabited

/-- Variables by name, in the order in which they were first bound. -/
abbrev Vars := Dict Value

namespace Value

/-- The kind of a value, as messages name it. -/
def typeName : Value → String
  | nil => "nil"
  | bool _ => "bool"
  | int _ => "int"
  | float _ => "float"
  | string _ => "string"
  | list _ => "list"
  | map _ => "map"
  | result .. => "result"

/-- The truth of a raw text: the empty text, `false` and `no` are false. -/
def textTruthy (s : String) : Bool := s != "" && s != "false" && s != "no"

/-- The truth of a value. -/
def truthy : Value → Bool
  | nil => false
  | bool b => b
  | int n => n != 0
  | float x => x != 0
  | string s => textTruthy s
  | list items => !items.isEmpty
  | map fields => !fields.isEmpty
  | result _ failed _ => !failed

/-- The text of a text value. -/
def text? : Value → Option String
  | string s => some s
  | _ => none

/-- The value that a plain text stands for: a whole number, a decimal with a
point, a truth value, or the text itself. -/
def infer (s : String) : Value :=
  match Decimal.word? s with
  | some n => int n
  | none =>
    match (if s.toList.contains '.' then Decimal.float? s else none) with
    | some x => float x
    | none => if s = "true" then bool true else if s = "false" then bool false else string s

mutual

/-- Equality in kind and content; the order of the pairs of a map is immaterial. -/
def same : Value → Value → Bool
  | nil, nil => true
  | bool a, bool b => a == b
  | int a, int b => a == b
  | float a, float b => a == b
  | string a, string b => a == b
  | list as, list bs => sameItems as bs
  | map as, map bs => as.length == bs.length && sameFields as bs
  | result c f as, result c' f' bs =>
    c == c' && f == f' && as.length == bs.length && sameFields as bs
  | _, _ => false

/-- Items are the same one by one. -/
def sameItems : List Value → List Value → Bool
  | [], [] => true
  | a :: as, b :: bs => same a b && sameItems as bs
  | _, _ => false

/-- Every pair of the first list has its like in the second. -/
def sameFields : List (String × Value) → List (String × Value) → Bool
  | [], _ => true
  | (key, a) :: rest, bs =>
    (match List.lookup key bs with
      | some b => same a b
      | none => false) && sameFields rest bs

end

/-- The same variables bound to the same values, in whatever order. -/
def sameVars (a b : Vars) : Bool := a.length == b.length && sameFields a b

/-- The double nearest to a word. -/
def wordFloat (n : Int64) : Float := Float.ofInt n.toInt

mutual

/-- The equality of the expression language: whole numbers and doubles compare
as numbers, also inside lists; all else is compared in kind and content. -/
def equal : Value → Value → Bool
  | int a, float b => wordFloat a == b
  | float a, int b => wordFloat b == a
  | list as, list bs => equalItems as bs
  | a, b => same a b

/-- Items are equal one by one. -/
def equalItems : List Value → List Value → Bool
  | [], [] => true
  | a :: as, b :: bs => equal a b && equalItems as bs
  | _, _ => false

end

/-- One step of a path into a value: a key of a map or a result, or an index of
a list. A result also answers to its two flags. -/
def step? (value : Value) (segment : String) : Option Value :=
  match value with
  | map fields => List.lookup segment fields
  | list items => (Decimal.index? segment).bind fun i => items[i]?
  | result changed failed data =>
    match List.lookup segment data with
    | some v => some v
    | none =>
      if segment = "Changed" ∨ segment = "changed" then some (bool changed)
      else if segment = "Failed" ∨ segment = "failed" then some (bool failed)
      else none
  | _ => none

end Value

end PlaybookRunner
