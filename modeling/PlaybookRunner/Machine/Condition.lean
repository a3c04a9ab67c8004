import PlaybookRunner.Machine.Printf

/-!
# Conditions of the shell

The words of a condition combine tests of texts, numbers and files. A single
word is true when it is not empty.
-/

namespace PlaybookRunner.Condition

/-- Why some words are not a condition. -/
inductive Fault
  /-- A word is left after another one that ends the condition. -/
  | leftOver (last next : String)
  | notNumber (word : String)
  /-- Nothing stands after an operator. -/
  | missingAfter (op : String)
  | openGroup (last : String)
deriving DecidableEq, Repr

/-- The words of the shell for a fault. -/
def Fault.shellMessage : Fault → String
  | leftOver last _ => last ++ ": unexpected operator"
  | notNumber word => "Illegal number: " ++ word
  | missingAfter op => op ++ ": argument expected"
  | openGroup _ => "closing paren expected"

/-- The words of the program for a fault in a condition of some words. -/
def Fault.message (words : List String) : Fault → String
  | leftOver _ next =>
    match words with
    | [first, second] =>
      if (first.toList.head? == some '-') && first.length == 2 then
        "'" ++ first ++ "': unary operator expected"
      else "missing argument after '" ++ second ++ "'"
    | [_, second, _] => "'" ++ second ++ "': binary operator expected"
    | _ => "extra argument '" ++ next ++ "'"
  | notNumber word => "invalid integer '" ++ word ++ "'"
  | missingAfter op => "missing argument after '" ++ op ++ "'"
  | openGroup last => "missing argument after '" ++ last ++ "'"

/-- A whole number, with white space around it. -/
def number? (s : String) : Option Int :=
  match s.toList.filter fun c => c != ' ' with
  | '-' :: digits => natural? digits |>.map fun n => -(n : Int)
  | '+' :: digits => natural? digits |>.map fun n => (n : Int)
  | digits => natural? digits |>.map fun n => (n : Int)
where
  natural? (digits : List Char) : Option Nat :=
    let n := Printf.digitsValue 10 digits
    if !digits.isEmpty && digits.all Char.isDigit && n < Decimal.signedBound then some n else none

/-- A test of one word. -/
def unary? (s : ProcessState) (op word : String) : Option Bool :=
  let entry := (s.files.lookup s.dir word).toOption.map Prod.snd
  match op with
  | "-n" => some (word != "")
  | "-z" => some (word == "")
  | "-e" => some entry.isSome
  | "-r" => some entry.isSome
  | "-w" => some entry.isSome
  | "-f" => some (match entry with | some (.file ..) => true | _ => false)
  | "-d" => some (match entry with | some .directory => true | _ => false)
  | "-s" => some (match entry with
    | some (.file content _) => !content.isEmpty
    | some .directory => true
    | _ => false)
  | "-x" => some (match entry with
    | some (.file _ executable) => executable
    | some .directory => true
    | _ => false)
  | "-L" => some false
  | "-h" => some false
  | "-t" => some false
  | _ => none

/-- A comparison of two numbers. -/
def comparison? (op : String) : Option (Int → Int → Bool) :=
  match op with
  | "-eq" => some fun a b => a == b
  | "-ne" => some fun a b => a != b
  | "-gt" => some fun a b => decide (a > b)
  | "-ge" => some fun a b => decide (a ≥ b)
  | "-lt" => some fun a b => decide (a < b)
  | "-le" => some fun a b => decide (a ≤ b)
  | _ => none

/-- An operator between two words. -/
def isBinary (op : String) : Bool :=
  ["=", "==", "!=", "<", ">"].contains op || (comparison? op).isSome

/-- A test of two words; `none` when there is no such test. A doubled equals sign
is one only under some rules. -/
def binary? (doubled : Bool) (left op right : String) : Option (Except Fault Bool) :=
  match op with
  | "=" => some (.ok (left == right))
  | "==" => if doubled then some (.ok (left == right)) else none
  | "!=" => some (.ok (left != right))
  | "<" => some (.ok (decide (left < right)))
  | ">" => some (.ok (decide (right < left)))
  | op =>
    (comparison? op).map fun compare =>
      match number? left, number? right with
      | some a, some b => .ok (compare a b)
      | none, _ => .error (.notNumber left)
      | _, none => .error (.notNumber right)

/-- What is read of a condition: its truth, the last word of it, and the words after it. -/
structure Reached where
  truth : Bool
  last : String
  rest : List String

mutual

/-- Alternatives. -/
def orExpr (s : ProcessState) (doubled : Bool) : Nat → List String → Except Fault Reached
  | 0, _ => .error (.openGroup "")
  | fuel + 1, words => do
    let left ← andExpr s doubled fuel words
    match left.rest with
    | "-o" :: rest =>
      let right ← orExpr s doubled fuel rest
      return { right with truth := left.truth || right.truth }
    | _ => return left

/-- Conjunctions. -/
def andExpr (s : ProcessState) (doubled : Bool) : Nat → List String → Except Fault Reached
  | 0, _ => .error (.openGroup "")
  | fuel + 1, words => do
    let left ← notExpr s doubled fuel words
    match left.rest with
    | "-a" :: rest =>
      let right ← andExpr s doubled fuel rest
      return { right with truth := left.truth && right.truth }
    | _ => return left

/-- Negations and single tests. -/
def notExpr (s : ProcessState) (doubled : Bool) : Nat → List String → Except Fault Reached
  | 0, _ => .error (.openGroup "")
  | fuel + 1, words =>
    match words with
    | [] => .ok { truth := false, last := "", rest := [] }
    | [word] => .ok { truth := word != "", last := word, rest := [] }
    | first :: second :: rest =>
      match rest with
      | third :: more =>
        match binary? doubled first second third with
        | some outcome => outcome.map fun truth => { truth, last := third, rest := more }
        | none => prefixExpr s doubled fuel first second rest
      | [] => prefixExpr s doubled fuel first second rest

/-- A negation, a group, a test of one word, or a lone word. -/
def prefixExpr (s : ProcessState) (doubled : Bool) : Nat → String → String → List String → Except Fault Reached
  | 0, _, _, _ => .error (.openGroup "")
  | fuel + 1, first, second, rest =>
    if first == "!" then do
      let inner ← notExpr s doubled fuel (second :: rest)
      return { inner with truth := !inner.truth }
    else if first == "(" then do
      let inner ← orExpr s doubled fuel (second :: rest)
      match inner.rest with
      | ")" :: rest => return { inner with last := ")", rest }
      | _ => .error (.openGroup inner.last)
    else
      match unary? s first second with
      | some truth => .ok { truth, last := second, rest }
      | none =>
        if isBinary second && rest.isEmpty then .error (.missingAfter second)
        else .ok { truth := first != "", last := first, rest := second :: rest }

end

/-- The truth of the words of a condition; an equals sign may also be doubled if
the rules say so. -/
def holds (s : ProcessState) (doubled : Bool) (words : List String) : Except Fault Bool :=
  if words.isEmpty then .ok false
  else
    match orExpr s doubled (4 * words.length + 8) words with
    | .error e => .error e
    | .ok { truth, rest := [], .. } => .ok truth
    | .ok { last, rest := next :: _, .. } => .error (.leftOver last next)

/-- The program that tests a condition, under a name. -/
def program (name : String) : Program := fun words => do
  match words, holds (← get) true words with
  | [_, "-a"], _ => refuse "missing argument after '-a'"
  | [_, "-o"], _ => refuse "missing argument after '-o'"
  | _, .ok true => return 0
  | _, .ok false => return 1
  | _, .error fault => refuse (fault.message words)
where
  refuse (message : String) : Process Nat := do
    Process.complain (name ++ ": " ++ message)
    return 2

/-- The program that tests a condition between brackets. -/
def bracketProgram : Program := fun words =>
  match words.getLast? with
  | some "]" => program "[" words.dropLast
  | _ => do
    Process.complain "[: missing ']'"
    return 2

end PlaybookRunner.Condition
