import PlaybookRunner.Decimal.Reader

/-!
# What scalars stand for

A plain scalar without tag is nothing, a truth value, a number, or the text
itself. Digits behind a leading zero are a text, and so is a number too large
for a double. A whole number beyond 64 bits that fits 128 bits stands for
nothing at all.
-/

namespace PlaybookRunner.Yaml

/-- The content of a scalar. -/
inductive Literal
  | null
  | bool (value : Bool)
  | int (value : Int)
  | float (value : Float)
  | string (text : String)
deriving Inhabited

namespace Literal

/-- The same kind and content; no number is the same as itself here. -/
def same : Literal → Literal → Bool
  | null, null => true
  | bool a, bool b => a == b
  | int a, int b => a == b
  | float a, float b => a == b || (a.isNaN && b.isNaN)
  | string a, string b => a == b
  | _, _ => false

/-- The words for nothing. -/
def isNullWord (text : String) : Bool := ["null", "Null", "NULL", "~"].contains text

/-- The truth value of a word. -/
def boolWord? (text : String) : Option Bool :=
  if ["true", "True", "TRUE"].contains text then some true
  else if ["false", "False", "FALSE"].contains text then some false
  else none

/-- The value of a digit, letters counting from ten. -/
def digitValue (c : Char) : Nat :=
  if c.isDigit then c.toNat - '0'.toNat
  else if 'a' ≤ c && c ≤ 'z' then c.toNat - 'a'.toNat + 10
  else if 'A' ≤ c && c ≤ 'Z' then c.toNat - 'A'.toNat + 10
  else 36

/-- The number of a nonempty list of digits of a base. -/
def inBase? (base : Nat) (cs : List Char) : Option Nat :=
  if cs.isEmpty || !cs.all (fun c => digitValue c < base) then none
  else some (cs.foldl (fun n c => base * n + digitValue c) 0)

/-- Several digits of which the first is zero. -/
def isPadded (cs : List Char) : Bool :=
  match cs with
  | '0' :: rest => !rest.isEmpty && rest.all Char.isDigit
  | _ => false

/-- A text without the sign it may start with. -/
def unsigned (cs : List Char) : List Char :=
  match cs with
  | '-' :: rest => rest
  | '+' :: rest => rest
  | _ => cs

/-- A number without sign. -/
def magnitude? (cs : List Char) : Option Nat :=
  match cs with
  | '0' :: 'x' :: rest => inBase? 16 rest
  | '0' :: 'o' :: rest => inBase? 8 rest
  | '0' :: 'b' :: rest => inBase? 2 rest
  | _ => if isPadded cs then none else inBase? 10 cs

/-- A whole number of at most 128 bits. -/
def whole? (cs : List Char) : Option Int :=
  match cs with
  | '-' :: rest =>
    match magnitude? rest with
    | some n => if n ≤ Nat.pow 2 127 then some (-(n : Int)) else none
    | none => none
  | _ =>
    match magnitude? (unsigned cs) with
    | some n => if n < Nat.pow 2 128 then some (n : Int) else none
    | none => none

/-- A whole number of at most 64 bits, with or without sign. -/
def int? (n : Int) : Option Literal :=
  if -(Decimal.signedBound : Int) ≤ n ∧ n < (Decimal.unsignedBound : Int) then some (int n) else none

/-- A double: a decimal that is finite, or one of the words for the others. -/
def float? (text : String) : Option Float :=
  let positive :=
    match text.toList with
    | '+' :: rest => rest
    | cs => cs
  if text.toList.head? == some '+' && (positive.head? == some '+' || positive.head? == some '-') then
    none
  else if [".inf", ".Inf", ".INF"].contains (String.ofList positive) then
    some (Float.ofScientific 1 false 999)
  else if ["-.inf", "-.Inf", "-.INF"].contains text then some (-Float.ofScientific 1 false 999)
  else if [".nan", ".NaN", ".NAN"].contains text then some (0.0 / 0.0)
  else
    match Decimal.float? (String.ofList positive) with
    | some x => if x.isFinite then some x else none
    | none => none

/-- What a plain text stands for. -/
def ofPlain? (text : String) : Option Literal :=
  if text == "" || isNullWord text then some null
  else
    match boolWord? text, whole? text.toList with
    | some b, _ => some (bool b)
    | none, some n => int? n
    | none, none =>
      match (if isPadded (unsigned text.toList) then none else float? text) with
      | some x => some (float x)
      | none => some (string text)

/-- The start of the tags that name a kind of scalar. -/
def kindStart : String := "tag:yaml.org,2002:"

/-- What a scalar stands for. A tag that names a kind demands that kind. -/
def ofScalar? (tag : Option String) (isPlain : Bool) (text : String) : Option Literal :=
  match tag with
  | none => if isPlain then ofPlain? text else some (string text)
  | some tag =>
    if tag == kindStart ++ "null" then if isNullWord text then some null else none
    else if tag == kindStart ++ "bool" then (boolWord? text).map bool
    else if tag == kindStart ++ "int" then (whole? text.toList).bind int?
    else if tag == kindStart ++ "float" then (float? text).map float
    else if tag.toList.head? == some '!' && isPlain then ofPlain? text
    else some (string text)

end Literal

/-- The name of a tag of the document's own, without its mark. -/
def ownTag? (tag : Option String) : Option String :=
  match tag.map String.toList with
  | some ['!'] => some "!"
  | some ('!' :: name) => some (String.ofList name)
  | _ => none

end PlaybookRunner.Yaml
