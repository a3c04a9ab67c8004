import PlaybookRunner.Decimal.Reader
import PlaybookRunner.Json.Basic

/-!
# Reading JSON

A strict reader: one value between white space, at most 127 brackets deep. A
number with a point or an exponent, or too large for a word, is a double. It
is computed from the digits that fit a word by one multiplication or division
with a power of ten, and is refused when that overflows.
-/

namespace PlaybookRunner.Json

/-- White space between tokens. -/
def isSpace (c : Char) : Bool := c == ' ' || c == '\t' || c == '\n' || c == '\r'

/-- Drops white space. -/
def skipSpace (cs : List Char) : List Char := cs.dropWhile isSpace

/-- The value of a hexadecimal digit. -/
def hexValue? (c : Char) : Option Nat :=
  if c.isDigit then some (c.toNat - '0'.toNat)
  else if 'a' ≤ c && c ≤ 'f' then some (c.toNat - 'a'.toNat + 10)
  else if 'A' ≤ c && c ≤ 'F' then some (c.toNat - 'A'.toNat + 10)
  else none

/-- Four hexadecimal digits. -/
def hexQuad? (a b c d : Char) : Option Nat := do
  let w ← hexValue? a
  let x ← hexValue? b
  let y ← hexValue? c
  let z ← hexValue? d
  some (4096 * w + 256 * x + 16 * y + z)

/-- The rest of a string after its opening quote: its characters and what follows it. -/
def readString (acc : List Char) : List Char → Option (String × List Char)
  | '"' :: rest => some (String.ofList acc.reverse, rest)
  | '\\' :: 'u' :: a :: b :: c :: d :: '\\' :: 'u' :: e :: f :: g :: h :: rest => do
    let n ← hexQuad? a b c d
    if 0xD800 ≤ n && n < 0xDC00 then
      let m ← hexQuad? e f g h
      if 0xDC00 ≤ m && m < 0xE000 then
        readString (Char.ofNat (0x10000 + (n - 0xD800) * 0x400 + (m - 0xDC00)) :: acc) rest
      else none
    else if 0xDC00 ≤ n && n < 0xE000 then none
    else readString (Char.ofNat n :: acc) ('\\' :: 'u' :: e :: f :: g :: h :: rest)
  | '\\' :: 'u' :: a :: b :: c :: d :: rest => do
    let n ← hexQuad? a b c d
    if 0xD800 ≤ n && n < 0xE000 then none else readString (Char.ofNat n :: acc) rest
  | '\\' :: e :: rest =>
    match e with
    | '"' => readString ('"' :: acc) rest
    | '\\' => readString ('\\' :: acc) rest
    | '/' => readString ('/' :: acc) rest
    | 'b' => readString (Char.ofNat 8 :: acc) rest
    | 'f' => readString (Char.ofNat 12 :: acc) rest
    | 'n' => readString ('\n' :: acc) rest
    | 'r' => readString ('\r' :: acc) rest
    | 't' => readString ('\t' :: acc) rest
    | _ => none
  | c :: rest => if c.toNat < 0x20 || c == '\\' then none else readString (c :: acc) rest
  | [] => none

/-- Scales a number by a power of ten, in steps of at most 308 downwards. -/
def scale (x : Float) (exponent : Int) : Nat → Option Float
  | 0 => some x
  | n + 1 =>
    if exponent.natAbs ≤ 308 then
      let power := Float.ofScientific 1 false exponent.natAbs
      if 0 ≤ exponent then
        let y := x * power
        if y.isInf then none else some y
      else some (x / power)
    else if x == 0 then some x
    else if 0 ≤ exponent then none
    else scale (x / Float.ofScientific 1 false 308) (exponent + 308) n

/-- The double of some digits and a power of ten. -/
def assemble (negative : Bool) (significand : Nat) (exponent : Int) : Option Float :=
  (scale (Float.ofNat significand) exponent (exponent.natAbs / 308 + 2)).map fun x =>
    if negative then -x else x

/-- Takes digits as long as the number fits a word without sign: the number,
how many were taken, and the digits left over. -/
def takeDigits (n : Nat) (count : Nat) : List Char → Nat × Nat × List Char
  | [] => (n, count, [])
  | c :: rest =>
    let next := 10 * n + (c.toNat - '0'.toNat)
    if next < Decimal.unsignedBound then takeDigits next (count + 1) rest else (n, count, c :: rest)

/-- The sign of an exponent, and what follows it. -/
def exponentSign : List Char → Bool × List Char
  | '+' :: rest => (false, rest)
  | '-' :: rest => (true, rest)
  | rest => (false, rest)

/-- The double of some digits whose power of ten starts somewhere and is moved by an exponent. -/
def withExponent (negative : Bool) (significand : Nat) (start : Int) (sign : Bool) (e : Nat) :
    Option Float :=
  if 2147483648 ≤ e then
    if significand != 0 && !sign then none else some (if negative then (-0.0 : Float) else 0.0)
  else assemble negative significand (if sign then start - e else start + e)

/-- Reads an exponent after its mark, and assembles the number. -/
def readExponent (negative : Bool) (significand : Nat) (start : Int) (cs : List Char) :
    Option (Json × List Char) :=
  let (sign, body) := exponentSign cs
  let (ds, rest) := body.span Char.isDigit
  match Decimal.digits? ds with
  | none => none
  | some e => (withExponent negative significand start sign e).map fun x => (float x, rest)

/-- Reads what may follow the digits of a number that is known to be a double. -/
def readTail (negative : Bool) (significand : Nat) (exponent : Int) (cs : List Char) :
    Option (Json × List Char) :=
  match cs with
  | 'e' :: rest => readExponent negative significand exponent rest
  | 'E' :: rest => readExponent negative significand exponent rest
  | rest => (assemble negative significand exponent).map fun x => (float x, rest)

/-- Reads the digits after a point. -/
def readFraction (negative : Bool) (significand : Nat) (exponent : Int) (cs : List Char) :
    Option (Json × List Char) :=
  let (ds, rest) := cs.span Char.isDigit
  if ds.isEmpty then none
  else
    let (n, taken, _) := takeDigits significand 0 ds
    readTail negative n (exponent - taken) rest

/-- A number without point and exponent, a double beyond the words. -/
def wholeOf (negative : Bool) (n : Nat) : Json :=
  if negative then
    if n == 0 then float (-0.0)
    else if n ≤ Decimal.signedBound then int (-(n : Int))
    else float (-(Float.ofNat n))
  else int n

/-- Reads what may follow the digits before the point, of which some may be left over. -/
def readAfterWhole (negative : Bool) (n : Nat) (left cs : List Char) : Option (Json × List Char) :=
  match left, cs with
  | left, '.' :: more => readFraction negative n left.length more
  | [], 'e' :: more => readExponent negative n 0 more
  | [], 'E' :: more => readExponent negative n 0 more
  | [], rest => some (wholeOf negative n, rest)
  | left, rest => readTail negative n left.length rest

/-- Reads a number without its sign. -/
def readUnsigned (negative : Bool) (cs : List Char) : Option (Json × List Char) :=
  let (ds, rest) := cs.span Char.isDigit
  match ds with
  | [] => none
  | '0' :: _ :: _ => none
  | ds =>
    let (n, _, left) := takeDigits 0 0 ds
    readAfterWhole negative n left rest

/-- Reads a number. -/
def readNumber (cs : List Char) : Option (Json × List Char) :=
  match cs with
  | '-' :: rest => readUnsigned true rest
  | rest => readUnsigned false rest

/-- Drops the characters of a word off the front. -/
def dropWord? (word : List Char) (cs : List Char) : Option (List Char) :=
  if word.isPrefixOf cs then some (cs.drop word.length) else none

mutual

/-- Reads a value at most `depth - 1` brackets deep. -/
def readValue : Nat → Nat → List Char → Option (Json × List Char)
  | 0, _, _ => none
  | fuel + 1, depth, cs =>
    match skipSpace cs with
    | [] => none
    | c :: rest =>
      if c == '[' then
        if depth ≤ 1 then none
        else
          match skipSpace rest with
          | ']' :: after => some (array [], after)
          | body => (readItems fuel (depth - 1) body).map fun (xs, after) => (array xs, after)
      else if c == '{' then
        if depth ≤ 1 then none
        else
          match skipSpace rest with
          | [] => none
          | d :: after =>
            if d == '}' then some (object [], after)
            else (readFields fuel (depth - 1) (d :: after)).map fun (fs, rest) => (object fs, rest)
      else if c == '"' then (readString [] rest).map fun (s, after) => (string s, after)
      else if c == 'n' then (dropWord? "ull".toList rest).map fun after => (null, after)
      else if c == 't' then (dropWord? "rue".toList rest).map fun after => (bool true, after)
      else if c == 'f' then (dropWord? "alse".toList rest).map fun after => (bool false, after)
      else readNumber (c :: rest)

/-- Reads the items of a nonempty array up to its end. -/
def readItems : Nat → Nat → List Char → Option (List Json × List Char)
  | 0, _, _ => none
  | fuel + 1, depth, cs => do
    let (item, after) ← readValue fuel depth cs
    match skipSpace after with
    | ',' :: rest =>
      let (items, rest) ← readItems fuel depth rest
      some (item :: items, rest)
    | ']' :: rest => some ([item], rest)
    | _ => none

/-- Reads the fields of a nonempty object up to its end. -/
def readFields : Nat → Nat → List Char → Option (List (String × Json) × List Char)
  | 0, _, _ => none
  | fuel + 1, depth, cs =>
    match skipSpace cs with
    | '"' :: rest => do
      let (key, afterKey) ← readString [] rest
      match skipSpace afterKey with
      | ':' :: rest => do
        let (value, after) ← readValue fuel depth rest
        match skipSpace after with
        | ',' :: rest =>
          let (fields, rest) ← readFields fuel depth rest
          some ((key, value) :: fields, rest)
        | c :: rest => if c == '}' then some ([(key, value)], rest) else none
        | [] => none
      | _ => none
    | _ => none

end

/-- The deepest nesting that is read, plus one. -/
def maxDepth : Nat := 128

/-- The tree of a text, pairs in the order of the text. -/
def read? (s : String) : Option Json :=
  match readValue (2 * s.length + 2) maxDepth s.toList with
  | some (j, rest) => if (skipSpace rest).isEmpty then some j else none
  | none => none

end PlaybookRunner.Json
