import PlaybookRunner.Machine.Condition

/-!
# Calculation with words

Words form an expression of numbers and texts. Alternatives bind least, then
conjunctions, comparisons, sums and products.
-/

namespace PlaybookRunner.Calculator

/-- Why words cannot be calculated. -/
inductive Fault
  | badSyntax
  | notNumber
  | divisionByZero

/-- The words for a fault. -/
def Fault.words : Fault → String
  | badSyntax => "syntax error"
  | notNumber => "non-integer argument"
  | divisionByZero => "division by zero"

/-- A text that counts as false. -/
def isNull (s : String) : Bool := s == "" || Condition.number? s == some 0

/-- The levels of operators from the loosest to the tightest. -/
def levels : List (List String) :=
  [["|"], ["&"], ["<", "<=", "=", "==", "!=", ">=", ">"], ["+", "-"], ["*", "/", "%"]]

/-- Compares two words: as numbers if both are, and as texts otherwise. -/
def compare (op a b : String) : Bool :=
  let order : Ordering :=
    match Condition.number? a, Condition.number? b with
    | some x, some y => Ord.compare x y
    | _, _ => Ord.compare a b
  match op with
  | "<" => order == .lt
  | "<=" => order != .gt
  | "!=" => order != .eq
  | ">=" => order != .lt
  | ">" => order == .gt
  | _ => order == .eq

/-- Applies an operator. -/
def apply (op a b : String) : Except Fault String :=
  if op == "|" then .ok (if isNull a then (if isNull b then "0" else b) else a)
  else if op == "&" then .ok (if isNull a || isNull b then "0" else a)
  else if (levels[2]?.getD []).contains op then .ok (if compare op a b then "1" else "0")
  else
    match Condition.number? a, Condition.number? b with
    | some x, some y =>
      if op == "+" then .ok (toString (x + y))
      else if op == "-" then .ok (toString (x - y))
      else if op == "*" then .ok (toString (x * y))
      else if y == 0 then .error .divisionByZero
      else if op == "/" then .ok (toString (x.tdiv y))
      else .ok (toString (x.tmod y))
    | _, _ => .error .notNumber

mutual

/-- An expression of operators from a level on. -/
def expression : Nat → List (List String) → List String → Except Fault (String × List String)
  | 0, _, _ => .error .badSyntax
  | fuel + 1, [], words => primary fuel words
  | fuel + 1, ops :: tighter, words => do
    let (left, rest) ← expression fuel tighter words
    chain fuel ops tighter left rest

/-- The operators of a level after a first operand. -/
def chain : Nat → List String → List (List String) → String → List String →
    Except Fault (String × List String)
  | 0, _, _, _, _ => .error .badSyntax
  | fuel + 1, ops, tighter, left, words =>
    match words with
    | op :: rest =>
      if ops.contains op then do
        let (right, rest) ← expression fuel tighter rest
        chain fuel ops tighter (← apply op left right) rest
      else .ok (left, words)
    | [] => .ok (left, [])

/-- A word, a group, or a function of words. -/
def primary : Nat → List String → Except Fault (String × List String)
  | 0, _ => .error .badSyntax
  | fuel + 1, words =>
    match words with
    | "(" :: rest => do
      let (value, rest) ← expression fuel levels rest
      match rest with
      | ")" :: rest => return (value, rest)
      | _ => .error .badSyntax
    | "length" :: word :: rest => .ok (toString word.length, rest)
    | word :: rest => .ok (word, rest)
    | [] => .error .badSyntax

end

/-- The value of some words. -/
def value (words : List String) : Except Fault String :=
  match expression (8 * words.length + 16) levels words with
  | .error e => .error e
  | .ok (v, []) => .ok v
  | .ok _ => .error .badSyntax

/-- The program that prints the value of its words. -/
def program : Program := fun words => do
  match value words with
  | .ok v =>
    Process.printLine v
    return (if isNull v then 1 else 0)
  | .error fault =>
    Process.complain ("expr: " ++ fault.words)
    return 2

end PlaybookRunner.Calculator
