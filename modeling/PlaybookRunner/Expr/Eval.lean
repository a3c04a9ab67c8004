import PlaybookRunner.Expr.Tree
import PlaybookRunner.Text.Case
import PlaybookRunner.Value.Json

/-!
# Evaluation

An expression is evaluated against a reading of variables. Reading may itself
have effects, so evaluation is generic in the monad of the reading. A special
form receives its arguments as actions and runs only those it needs; a function
receives their values, evaluated from left to right.
-/

namespace PlaybookRunner

/-- Why an expression has no value. -/
inductive EvalError
  | undefined (name : String)
  | typeMismatch (op expected found : String)
  | arity (op expected : String) (found : Nat)
  | divisionByZero
deriving DecidableEq, Repr

/-- The wording of an evaluation error. -/
def EvalError.message : EvalError → String
  | undefined name => s!"undefined: '{name}'"
  | typeMismatch op expected found =>
    s!"type mismatch in '{op}': expected {expected}, found {found}"
  | arity op expected found => s!"'{op}' expects {expected} arguments, got {found}"
  | divisionByZero => "division by zero"

/-- A number of the expression language. -/
inductive Number
  | int (value : Int64)
  | float (value : Float)

namespace Number

/-- The number as a double. -/
def toFloat : Number → Float
  | int n => Value.wordFloat n
  | float x => x

/-- The number as a value. -/
def toValue : Number → Value
  | int n => .int n
  | float x => .float x

/-- The word of a whole number, if it fits. -/
def word? (n : Int) : Option Number :=
  if Decimal.fitsWord n then some (int (Int64.ofInt n)) else none

/-- The number of a value, for the operator `op`. -/
def ofValue (op : String) : Value → Except EvalError Number
  | .int n => .ok (int n)
  | .float x => .ok (float x)
  | other => .error (.typeMismatch op "number" other.typeName)

/-- Whole numbers stay whole as long as the exact result fits a word. -/
def wholeOr (exact : Int → Int → Int) (approximate : Float → Float → Float) (a b : Number) :
    Number :=
  match a, b with
  | int x, int y => (word? (exact x.toInt y.toInt)).getD (float (approximate a.toFloat b.toFloat))
  | _, _ => float (approximate a.toFloat b.toFloat)

/-- A number that must not divide. -/
def isZero : Number → Bool
  | int n => n == 0
  | float x => x == 0

/-- One of the four operations; division truncates towards zero. -/
def combine (op : String) (a b : Number) : Except EvalError Number :=
  match op with
  | "+" => .ok (wholeOr (· + ·) (· + ·) a b)
  | "-" => .ok (wholeOr (· - ·) (· - ·) a b)
  | "*" => .ok (wholeOr (· * ·) (· * ·) a b)
  | _ => if b.isZero then .error .divisionByZero else .ok (wholeOr Int.tdiv (· / ·) a b)

/-- Combines numbers from left to right. -/
def combineAll (op : String) (first : Number) : List Value → Except EvalError Number
  | [] => .ok first
  | v :: rest =>
    match ofValue op v with
    | .error e => .error e
    | .ok n =>
      match combine op first n with
      | .error e => .error e
      | .ok m => combineAll op m rest

end Number

namespace Expr

/-- Folds a nonempty list of numbers with an operation. -/
def foldNumbers (op : String) (first : Value) (rest : List Value) : Except EvalError Value :=
  match Number.ofValue op first with
  | .error e => .error e
  | .ok n => (Number.combineAll op n rest).map Number.toValue

/-- The order of two doubles; no number equals everything. -/
def floatOrder (x y : Float) : Ordering := if x < y then .lt else if y < x then .gt else .eq

/-- The order of two values for the operator `op`: numbers by size, texts by
their characters. -/
def order (op : String) (a b : Value) : Except EvalError Ordering :=
  match a, b with
  | .int x, .int y => .ok (compare x.toInt y.toInt)
  | .string x, .string y => .ok (if x < y then .lt else if y < x then .gt else .eq)
  | .int x, .float y => .ok (floatOrder (Value.wordFloat x) y)
  | .float x, .int y => .ok (floatOrder x (Value.wordFloat y))
  | .float x, .float y => .ok (floatOrder x y)
  | .int _, other => .error (.typeMismatch op "int" other.typeName)
  | .float _, other => .error (.typeMismatch op "float" other.typeName)
  | .string _, other => .error (.typeMismatch op "string" other.typeName)
  | other, _ => .error (.typeMismatch op "number or string" other.typeName)

/-- The remainder of a truncating division. -/
def remainder : Value → Value → Except EvalError Value
  | .int x, .int y =>
    if y == 0 then .error .divisionByZero
    else .ok (.int (Int64.ofInt (x.toInt.tmod y.toInt)))
  | .int _, other => .error (.typeMismatch "%" "int" other.typeName)
  | other, _ => .error (.typeMismatch "%" "int" other.typeName)

/-- The opposite number; the least word is its own opposite. -/
def negate (v : Value) : Except EvalError Value :=
  (Number.ofValue "-" v).map fun
    | .int n => .int (-n)
    | .float x => .float (-x)

/-- The length of a text, a list or a map. -/
def length : Value → Except EvalError Value
  | .string s => .ok (.int (Int64.ofNat s.length))
  | .list items => .ok (.int (Int64.ofNat items.length))
  | .map fields => .ok (.int (Int64.ofNat fields.length))
  | other => .error (.typeMismatch "len" "string, list or map" other.typeName)

/-- An element of a container, nil if it has none there. -/
def element : Value → Value → Except EvalError Value
  | .list items, .int n =>
    .ok (if n < 0 then .nil else (items[n.toInt.toNat]?).getD .nil)
  | .list _, other => .error (.typeMismatch "get" "int" other.typeName)
  | .map fields, .string key => .ok (((Value.map fields).step? key).getD .nil)
  | .result c f data, .string key => .ok (((Value.result c f data).step? key).getD .nil)
  | .map _, other => .error (.typeMismatch "get" "string" other.typeName)
  | .result .., other => .error (.typeMismatch "get" "string" other.typeName)
  | other, _ => .error (.typeMismatch "get" "list, map or result" other.typeName)

/-- The texts of the items of a list between separators. -/
def join : Value → Value → Except EvalError Value
  | .list items, .string sep => .ok (.string (sep.intercalate (items.map Value.display)))
  | .list _, other => .error (.typeMismatch "join" "string" other.typeName)
  | other, _ => .error (.typeMismatch "join" "list" other.typeName)

/-- A text holds a text, a list an equal item, a map or a result a key. -/
def holds : Value → Value → Except EvalError Bool
  | .string hay, .string needle => .ok (Text.occursIn needle.toList hay.toList)
  | .list items, needle => .ok (items.any fun v => v.equal needle)
  | .map fields, .string key => .ok ((List.lookup key fields).isSome)
  | .result c f data, .string key => .ok ((Value.result c f data).step? key).isSome
  | .string _, other => .error (.typeMismatch "contains" "string" other.typeName)
  | .map _, other => .error (.typeMismatch "contains" "string" other.typeName)
  | .result .., other => .error (.typeMismatch "contains" "string" other.typeName)
  | other, _ => .error (.typeMismatch "contains" "string, list or map" other.typeName)

/-- A text with another case. -/
def recase (op : String) (change : String → String) : Value → Except EvalError Value
  | .string s => .ok (.string (change s))
  | other => .error (.typeMismatch op "string" other.typeName)

/-- A truth value of an order. -/
def compareBy (op : String) (test : Ordering → Bool) (args : List Value) :
    Except EvalError Value :=
  match args with
  | [a, b] => (order op a b).map fun o => .bool (test o)
  | _ => .error (.arity op "2" args.length)

/-- A function of one argument. -/
def unary (op : String) (f : Value → Except EvalError Value) (args : List Value) :
    Except EvalError Value :=
  match args with
  | [a] => f a
  | _ => .error (.arity op "1" args.length)

/-- A function of two arguments. -/
def binary (op : String) (f : Value → Value → Except EvalError Value) (args : List Value) :
    Except EvalError Value :=
  match args with
  | [a, b] => f a b
  | _ => .error (.arity op "2" args.length)

/-- Applies a function to values. -/
def apply (op : String) (args : List Value) : Except EvalError Value :=
  match op with
  | "+" | "*" =>
    match args with
    | [] => .error (.arity op "at least 1" 0)
    | a :: rest => foldNumbers op a rest
  | "-" =>
    match args with
    | [] => .error (.arity op "at least 1" 0)
    | [a] => negate a
    | a :: rest => foldNumbers op a rest
  | "/" =>
    match args with
    | a :: b :: rest => foldNumbers op a (b :: rest)
    | _ => .error (.arity op "at least 2" args.length)
  | "%" => binary op remainder args
  | "=" => binary op (fun a b => .ok (.bool (a.equal b))) args
  | "!=" => binary op (fun a b => .ok (.bool (!a.equal b))) args
  | "<" => compareBy op (· == .lt) args
  | ">" => compareBy op (· == .gt) args
  | "<=" => compareBy op (· != .gt) args
  | ">=" => compareBy op (· != .lt) args
  | "not" => unary op (fun a => .ok (.bool (!a.truthy))) args
  | "str" => .ok (.string (String.join (args.map Value.display)))
  | "list" => .ok (.list args)
  | "len" => unary op length args
  | "get" => binary op element args
  | "upper" => unary op (recase op Text.upper) args
  | "lower" => unary op (recase op Text.lower) args
  | "join" => binary op join args
  | "contains" => binary op (fun a b => (holds a b).map .bool) args
  | _ => .error (.undefined op)

/-- The name at the head of a dotted path. -/
def headName (path : String) : String :=
  match Text.splitAtChar '.' path.toList with
  | [] => path
  | head :: _ => String.ofList head

/-- The segments of a dotted path after its head. -/
def pathSteps (path : String) : List String :=
  (Text.splitAtChar '.' path.toList).tail.map String.ofList

/-- Follows the segments of a path from a value. -/
def follow (path : String) (value : Value) : List String → Except EvalError Value
  | [] => .ok value
  | segment :: rest =>
    match value.step? segment with
    | some next => follow path next rest
    | none => .error (.undefined path)

/-- The value of a path, from the value of the name at its head. -/
def resolveFrom (path : String) : Option Value → Except EvalError Value
  | some value => follow path value (pathSteps path)
  | none => .error (.undefined path)

section

variable {m : Type → Type} [Monad m]

/-- The value of a dotted path under a reading of variables. -/
def resolve (look : String → m (Option Value)) (path : String) : ExceptT EvalError m Value :=
  ExceptT.mk do return resolveFrom path (← look (headName path))

/-- Runs actions from left to right up to the first error. -/
def runAll : List (ExceptT EvalError m Value) → ExceptT EvalError m (List Value)
  | [] => pure []
  | a :: rest => do return (← a) :: (← runAll rest)

/-- Runs actions until one has not the wanted truth. -/
def runWhile (wanted : Bool) : List (ExceptT EvalError m Value) → ExceptT EvalError m Value
  | [] => pure (.bool wanted)
  | a :: rest => do
    if (← a).truthy == wanted then runWhile wanted rest else pure (.bool !wanted)

/-- The value of an action, or nothing if a name in it is undefined. -/
def attempt (a : ExceptT EvalError m Value) : ExceptT EvalError m (Option Value) :=
  ExceptT.mk do
    match ← a.run with
    | .ok v => return .ok (some v)
    | .error (.undefined _) => return .ok none
    | .error e => return .error e

/-- Runs a call on the actions of its arguments. -/
def runCall (op : String) (args : List (ExceptT EvalError m Value)) :
    ExceptT EvalError m Value :=
  match op with
  | "if" =>
    match args with
    | [test, yes] => do if (← test).truthy then yes else pure .nil
    | [test, yes, no] => do if (← test).truthy then yes else no
    | _ => throw (.arity op "2 or 3" args.length)
  | "and" => runWhile true args
  | "or" => runWhile false args
  | "defined" =>
    match args with
    | [a] => do return .bool (← attempt a).isSome
    | _ => throw (.arity op "1" args.length)
  | "default" =>
    match args with
    | [a, b] => do
      match ← attempt a with
      | some v => return v
      | none => b
    | _ => throw (.arity op "2" args.length)
  | _ => do
    match apply op (← runAll args) with
    | .ok v => return v
    | .error e => throw e

mutual

/-- The value of an expression under a reading of variables. -/
def eval (look : String → m (Option Value)) : Expr → ExceptT EvalError m Value
  | nil => pure .nil
  | bool b => pure (.bool b)
  | int n => pure (.int n)
  | float x => pure (.float x)
  | string s => pure (.string s)
  | symbol path => resolve look path
  | list items => do return .list (← runAll (evalEach look items))
  | concat parts => do
    return .string (String.join ((← runAll (evalEach look parts)).map Value.display))
  | call op args => runCall op (evalEach look args)

/-- The actions of some expressions. -/
def evalEach (look : String → m (Option Value)) : List Expr → List (ExceptT EvalError m Value)
  | [] => []
  | e :: rest => eval look e :: evalEach look rest

end

end

end Expr

end PlaybookRunner
