import PlaybookRunner.Dict
import PlaybookRunner.Machine.Printf

/-!
# Arithmetic of the shell

Whole numbers of one word; a name stands for the number in its variable, which
an assignment changes. The operators stand on levels, the loosest first.
-/

namespace PlaybookRunner.Shell.Arithmetic

/-- Why a text is not arithmetic. -/
inductive Fault
  | expectingPrimary
  | expectingBracket
  | expectingColon
  | expectingEnd
  | divisionByZero
  /-- The text of a variable is not a number. -/
  | notNumber (text : String)
deriving DecidableEq, Repr

/-- The words for a fault in a text. -/
def Fault.message (text : String) : Fault → String
  | expectingPrimary => "arithmetic expression: expecting primary: \"" ++ text ++ "\""
  | expectingBracket => "arithmetic expression: expecting ')': \"" ++ text ++ "\""
  | expectingColon => "arithmetic expression: expecting ':': \"" ++ text ++ "\""
  | expectingEnd => "arithmetic expression: expecting EOF: \"" ++ text ++ "\""
  | divisionByZero => "arithmetic expression: division by zero: \"" ++ text ++ "\""
  | notNumber value => "Illegal number: " ++ value

/-- A token. -/
inductive Token
  | number (value : Int)
  | name (name : String)
  | symbol (text : String)
  /-- A character that no token starts with. -/
  | other (c : Char)
deriving DecidableEq, Repr

/-- The operators that change a variable. -/
def assignments : List String :=
  ["<<=", ">>=", "+=", "-=", "*=", "/=", "%=", "&=", "|=", "^=", "="]

/-- The symbols; a longer one comes before what it starts with. -/
def symbols : List String :=
  ["<<=", ">>=", "<<", ">>", "<=", ">=", "==", "!=", "&&", "||", "+=", "-=", "*=", "/=", "%=",
    "&=", "|=", "^=", "<", ">", "+", "-", "*", "/", "%", "&", "|", "^", "!", "~", "(", ")", "?",
    ":", "="]

/-- The tokens of a text. -/
def tokens : Nat → List Char → List Token
  | _, [] => []
  | 0, _ :: _ => []
  | fuel + 1, c :: rest =>
    if c == ' ' || c == '\t' || c == '\n' then tokens fuel rest
    else if c.isDigit then
      let (base, digits, rest) := Printf.leadingDigits (c :: rest)
      .number (Printf.digitsValue base digits) :: tokens fuel rest
    else if c.isAlpha || c == '_' then
      let name := (c :: rest).takeWhile fun c => c.isAlphanum || c == '_'
      .name (String.ofList name) :: tokens fuel ((c :: rest).drop name.length)
    else
      match symbols.find? fun s => s.toList.isPrefixOf (c :: rest) with
      | some s => .symbol s :: tokens fuel ((c :: rest).drop s.length)
      | none => .other c :: tokens fuel rest

/-- The levels of operators from the loosest to the tightest. -/
def levels : List (List String) :=
  [["||"], ["&&"], ["|"], ["^"], ["&"], ["==", "!="], ["<", "<=", ">", ">="], ["<<", ">>"],
    ["+", "-"], ["*", "/", "%"]]

/-- A number reduced to one word. -/
def wrap (n : Int) : Int := (Int64.ofInt n).toInt

/-- The number for a truth value. -/
def ofBool (b : Bool) : Int := if b then 1 else 0

/-- Applies an operator. -/
def apply (op : String) (a b : Int) : Except Fault Int :=
  let bits (f : Int64 → Int64 → Int64) : Int := (f (Int64.ofInt a) (Int64.ofInt b)).toInt
  match op with
  | "||" => .ok (ofBool (a != 0 || b != 0))
  | "&&" => .ok (ofBool (a != 0 && b != 0))
  | "|" => .ok (bits (· ||| ·))
  | "^" => .ok (bits (· ^^^ ·))
  | "&" => .ok (bits (· &&& ·))
  | "==" => .ok (ofBool (a == b))
  | "!=" => .ok (ofBool (a != b))
  | "<" => .ok (ofBool (decide (a < b)))
  | "<=" => .ok (ofBool (decide (a ≤ b)))
  | ">" => .ok (ofBool (decide (a > b)))
  | ">=" => .ok (ofBool (decide (a ≥ b)))
  | "<<" => .ok (bits (· <<< ·))
  | ">>" => .ok (bits (· >>> ·))
  | "+" => .ok (wrap (a + b))
  | "-" => .ok (wrap (a - b))
  | "*" => .ok (wrap (a * b))
  | "/" => if b == 0 then .error .divisionByZero else .ok (wrap (a.tdiv b))
  | _ => if b == 0 then .error .divisionByZero else .ok (wrap (a.tmod b))

/-- A calculation with variables. -/
abbrev Calculation := StateT (Dict String) (Except Fault)

/-- The number that the text of a variable gives. -/
def numberOf (text : String) : Calculation Int :=
  match tokens text.length text.toList with
  | [] => return 0
  | [.number n] => return n
  | [.symbol "-", .number n] => return wrap (-n)
  | [.symbol "+", .number n] => return n
  | _ => throw (.notNumber text)

/-- The number in a variable; zero when it is not set. -/
def look (name : String) : Calculation Int := do
  match (← get).get? name with
  | some text => numberOf text
  | none => return 0

mutual

/-- An expression with a choice, or an assignment. -/
def choice : Nat → List Token → Calculation (Int × List Token)
  | 0, _ => throw .expectingPrimary
  | fuel + 1, ts => do
    let (test, rest) ←
      match ts with
      | .name name :: .symbol op :: after =>
        if assignments.contains op then assign fuel name op after else binary fuel levels ts
      | ts => binary fuel levels ts
    match rest with
    | .symbol "?" :: rest =>
      let (yes, rest) ← choice fuel rest
      match rest with
      | .symbol ":" :: rest =>
        let (no, rest) ← choice fuel rest
        return (if test != 0 then yes else no, rest)
      | _ => throw .expectingColon
    | rest => return (test, rest)

/-- An assignment of what comes next, or of what an operator makes of it. -/
def assign : Nat → String → String → List Token → Calculation (Int × List Token)
  | 0, _, _, _ => throw .expectingPrimary
  | fuel + 1, name, op, ts => do
    let (n, rest) ← choice fuel ts
    let value ← if op == "=" then pure n else apply (op.dropEnd 1).copy (← look name) n
    modify fun vars => vars.put name (toString value)
    return (value, rest)

/-- An expression of operators from a level on. -/
def binary : Nat → List (List String) → List Token → Calculation (Int × List Token)
  | 0, _, _ => throw .expectingPrimary
  | fuel + 1, [], ts => unary fuel ts
  | fuel + 1, ops :: tighter, ts => do
    let (left, rest) ← binary fuel tighter ts
    chain fuel ops tighter left rest

/-- The operators of a level after a first operand. -/
def chain :
    Nat → List String → List (List String) → Int → List Token → Calculation (Int × List Token)
  | 0, _, _, _, _ => throw .expectingPrimary
  | fuel + 1, ops, tighter, left, ts =>
    match ts with
    | .symbol op :: rest =>
      if ops.contains op then do
        let (right, rest) ← binary fuel tighter rest
        chain fuel ops tighter (← apply op left right) rest
      else return (left, ts)
    | ts => return (left, ts)

/-- A number, a name, a group, or one of these after a sign. -/
def unary : Nat → List Token → Calculation (Int × List Token)
  | 0, _ => throw .expectingPrimary
  | fuel + 1, ts =>
    match ts with
    | .symbol "-" :: rest => do
      let (n, rest) ← unary fuel rest
      return (wrap (-n), rest)
    | .symbol "+" :: rest => unary fuel rest
    | .symbol "!" :: rest => do
      let (n, rest) ← unary fuel rest
      return (ofBool (n == 0), rest)
    | .symbol "~" :: rest => do
      let (n, rest) ← unary fuel rest
      return (-n - 1, rest)
    | .symbol "(" :: rest => do
      let (n, rest) ← choice fuel rest
      match rest with
      | .symbol ")" :: rest => return (n, rest)
      | _ => throw .expectingBracket
    | .number n :: rest => return (n, rest)
    | .name name :: rest => return (← look name, rest)
    | _ => throw .expectingPrimary

end

/-- The value of a text, and the variables after it; the empty text is zero. -/
def value (vars : Dict String) (text : String) : Except Fault (Int × Dict String) := do
  match tokens text.length text.toList with
  | [] => return (0, vars)
  | ts =>
    let ((n, rest), vars) ← (choice (16 * ts.length + 32) ts).run vars
    if rest.isEmpty then return (n, vars) else throw .expectingEnd

end PlaybookRunner.Shell.Arithmetic
