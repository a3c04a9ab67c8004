import PlaybookRunner.Decimal.Reader
import PlaybookRunner.Toml.Basic

/-!
# Scalars of TOML

Texts on one line or several, with escapes or without; numbers, in which an
underscore may stand between digits; dates and times of day.
-/

namespace PlaybookRunner.Toml

/-- A blank. -/
def isBlank (c : Char) : Bool := c == ' ' || c == '\t'

/-- Drops blanks. -/
def skipBlanks (cs : List Char) : List Char := cs.dropWhile isBlank

/-- A character that may stand in a text or a comment. -/
def isText (c : Char) : Bool := c == '\t' || (0x20 ≤ c.toNat && c.toNat != 0x7F)

/-- What follows a line break. -/
def afterBreak? : List Char → Option (List Char)
  | '\n' :: rest => some rest
  | '\r' :: '\n' :: rest => some rest
  | _ => none

/-! ## Texts -/

/-- The value of a hexadecimal digit. -/
def hexDigit? (c : Char) : Option Nat :=
  if c.isDigit then some (c.toNat - '0'.toNat)
  else if 'a' ≤ c && c ≤ 'f' then some (c.toNat - 'a'.toNat + 10)
  else if 'A' ≤ c && c ≤ 'F' then some (c.toNat - 'A'.toNat + 10)
  else none

/-- The character with a number given by so many digits. -/
def numbered? (count : Nat) (cs : List Char) : Option (Char × List Char) := do
  let digits ← (cs.take count).mapM hexDigit?
  let n := digits.foldl (fun n d => 16 * n + d) 0
  if digits.length == count && n.isValidChar then some (Char.ofNat n, cs.drop count) else none

/-- The character that an escape stands for, after its backslash. -/
def escape? : List Char → Option (Char × List Char)
  | 'b' :: rest => some (Char.ofNat 8, rest)
  | 't' :: rest => some ('\t', rest)
  | 'n' :: rest => some ('\n', rest)
  | 'f' :: rest => some (Char.ofNat 12, rest)
  | 'r' :: rest => some ('\r', rest)
  | '"' :: rest => some ('"', rest)
  | '\\' :: rest => some ('\\', rest)
  | 'u' :: rest => numbered? 4 rest
  | 'U' :: rest => numbered? 8 rest
  | _ => none

/-- A text with escapes on one line, after its opening quote. -/
def basicText : Nat → List Char → List Char → Option (String × List Char)
  | 0, _, _ => none
  | fuel + 1, acc, cs =>
    match cs with
    | '"' :: rest => some (String.ofList acc.reverse, rest)
    | '\\' :: rest =>
      match escape? rest with
      | some (c, rest) => basicText fuel (c :: acc) rest
      | none => none
    | c :: rest => if isText c then basicText fuel (c :: acc) rest else none
    | [] => none

/-- A text without escapes on one line, after its opening quote. -/
def literalText (cs : List Char) : Option (String × List Char) :=
  let inside := cs.takeWhile fun c => c != '\''
  if inside.all isText && inside.length < cs.length then
    some (String.ofList inside, cs.drop (inside.length + 1))
  else none

/-- Drops a line break and all blanks and line breaks after it. -/
def skipBreaks : Nat → List Char → List Char
  | 0, cs => cs
  | fuel + 1, cs =>
    match afterBreak? (skipBlanks cs) with
    | some rest => skipBreaks fuel rest
    | none => skipBlanks cs

/-- A text over several lines, after its opening quotes. Up to two quotes may
stand before the closing ones. -/
def longText (quote : Char) (escapes : Bool) :
    Nat → List Char → List Char → Option (String × List Char)
  | 0, _, _ => none
  | fuel + 1, acc, cs =>
    match cs with
    | [] => none
    | c :: rest =>
      if c == quote then
        let run := (cs.takeWhile fun c => c == quote).length
        if run < 3 then
          longText quote escapes fuel (List.replicate run quote ++ acc) (cs.drop run)
        else if run ≤ 5 then
          some (String.ofList (List.replicate (run - 3) quote ++ acc).reverse, cs.drop run)
        else none
      else if c == '\\' && escapes then
        match escape? rest, afterBreak? (skipBlanks rest) with
        | some (c, rest), _ => longText quote escapes fuel (c :: acc) rest
        | none, some rest => longText quote escapes fuel acc (skipBreaks rest.length rest)
        | none, none => none
      else
        match afterBreak? cs with
        | some rest => longText quote escapes fuel ('\n' :: acc) rest
        | none => if isText c then longText quote escapes fuel (c :: acc) rest else none

/-- A text on one line. -/
def lineText? : List Char → Option (String × List Char)
  | '"' :: rest => basicText (rest.length + 1) [] rest
  | '\'' :: rest => literalText rest
  | _ => none

/-- A text. A line break right after the opening quotes of a long one is dropped. -/
def anyText? : List Char → Option (String × List Char)
  | '"' :: '"' :: '"' :: rest => long '"' true rest
  | '\'' :: '\'' :: '\'' :: rest => long '\'' false rest
  | cs => lineText? cs
where
  long (quote : Char) (escapes : Bool) (cs : List Char) : Option (String × List Char) :=
    let cs := (afterBreak? cs).getD cs
    longText quote escapes (cs.length + 1) [] cs

/-! ## Numbers -/

/-- Further digits, with single underscores before some of them. -/
def moreDigits (isDigit : Char → Bool) : List Char → List Char × List Char
  | '_' :: c :: rest =>
    if isDigit c then
      let (digits, after) := moreDigits isDigit rest
      (c :: digits, after)
    else ([], '_' :: c :: rest)
  | c :: rest =>
    if isDigit c then
      let (digits, after) := moreDigits isDigit rest
      (c :: digits, after)
    else ([], c :: rest)
  | [] => ([], [])

/-- Digits, at least one. -/
def digits? (isDigit : Char → Bool) : List Char → Option (List Char × List Char)
  | c :: rest =>
    if isDigit c then
      let (digits, after) := moreDigits isDigit rest
      some (c :: digits, after)
    else none
  | [] => none

/-- The sign that a number may start with. -/
def sign? : List Char → List Char × List Char
  | '-' :: rest => (['-'], rest)
  | '+' :: rest => ([], rest)
  | cs => ([], cs)

/-- Digits that do not start with a zero, unless it is the only one. -/
def whole? (cs : List Char) : Option (List Char × List Char) :=
  match cs with
  | '0' :: rest => some (['0'], rest)
  | _ => digits? Char.isDigit cs

/-- The exponent of a double, after its letter. -/
def exponent? (cs : List Char) : Option (List Char × List Char) :=
  let (sign, rest) := sign? cs
  (digits? Char.isDigit rest).map fun (digits, rest) => ('e' :: sign ++ digits, rest)

/-- What makes a number a double: a fraction, an exponent, or both. -/
def floatTail? : List Char → Option (List Char × List Char)
  | '.' :: rest =>
    match digits? Char.isDigit rest with
    | none => none
    | some (fraction, rest) =>
      match rest with
      | 'e' :: rest => (exponent? rest).map fun (e, rest) => ('.' :: fraction ++ e, rest)
      | 'E' :: rest => (exponent? rest).map fun (e, rest) => ('.' :: fraction ++ e, rest)
      | rest => some ('.' :: fraction, rest)
  | 'e' :: rest => exponent? rest
  | 'E' :: rest => exponent? rest
  | _ => none

/-- A double, which may not be too large to be finite. -/
def decimalFloat? (cs : List Char) : Option (Toml × List Char) := do
  let (sign, rest) := sign? cs
  let (whole, rest) ← whole? rest
  let (tail, rest) ← floatTail? rest
  let x ← Decimal.float? (String.ofList (sign ++ whole ++ tail))
  if !sign.isEmpty || x.isFinite then some (float x, rest) else none

/-- A double that is not finite. -/
def namedFloat? (cs : List Char) : Option (Toml × List Char) :=
  let (sign, rest) := sign? cs
  match rest with
  | 'i' :: 'n' :: 'f' :: rest =>
    let infinity := Float.ofScientific 1 false 999
    some (float (if sign.isEmpty then infinity else -infinity), rest)
  | 'n' :: 'a' :: 'n' :: rest => some (float (0.0 / 0.0), rest)
  | _ => none

/-- The number of digits of a base, in the range of the words with sign. -/
def inBase? (base : Nat) (cs : List Char) : Option (Toml × List Char) := do
  let isDigit (c : Char) : Bool := ((hexDigit? c).map fun d => decide (d < base)).getD false
  let (digits, rest) ← digits? isDigit cs
  let n := digits.foldl (fun n c => base * n + (hexDigit? c).getD 0) 0
  if n < Decimal.signedBound then some (int n, rest) else none

/-- A whole number. -/
def integer? : List Char → Option (Toml × List Char)
  | '0' :: 'x' :: rest => inBase? 16 rest
  | '0' :: 'o' :: rest => inBase? 8 rest
  | '0' :: 'b' :: rest => inBase? 2 rest
  | cs => do
    let (sign, rest) := sign? cs
    let (whole, rest) ← whole? rest
    let n ← Decimal.whole? (sign ++ whole)
    if Decimal.fitsWord n then some (int n, rest) else none

/-! ## Dates and times -/

/-- So many digits, and the number they form. -/
def fixed? (count : Nat) (cs : List Char) : Option (Nat × List Char) :=
  if (cs.take count).length == count then
    (Decimal.digits? (cs.take count)).map fun n => (n, cs.drop count)
  else none

/-- So many digits that form a number within limits. -/
def ranged? (low high : Nat) (cs : List Char) : Option (List Char) :=
  match fixed? 2 cs with
  | some (n, rest) => if low ≤ n ∧ n ≤ high then some rest else none
  | none => none

/-- The number of days of a month. -/
def monthDays (year month : Nat) : Nat :=
  if month == 2 then
    if year % 4 == 0 && (year % 100 != 0 || year % 400 == 0) then 29 else 28
  else if [4, 6, 9, 11].contains month then 30
  else 31

/-- What follows a certain character. -/
def after? (c : Char) : List Char → Option (List Char)
  | d :: rest => if d == c then some rest else none
  | [] => none

/-- What follows a date. -/
def afterDate? (cs : List Char) : Option (List Char) := do
  let (year, rest) ← fixed? 4 cs
  let (month, rest) ← fixed? 2 (← after? '-' rest)
  let (day, rest) ← fixed? 2 (← after? '-' rest)
  if 1 ≤ month ∧ month ≤ 12 ∧ 1 ≤ day ∧ day ≤ monthDays year month then some rest else none

/-- What follows the fraction of a second, if there is one. -/
def afterFraction : List Char → List Char
  | '.' :: rest =>
    let digits := rest.takeWhile Char.isDigit
    if digits.isEmpty then '.' :: rest else rest.drop digits.length
  | cs => cs

/-- What follows a time of day. -/
def afterTime? (cs : List Char) : Option (List Char) := do
  let rest ← after? ':' (← ranged? 0 23 cs)
  let rest ← after? ':' (← ranged? 0 59 rest)
  let rest ← ranged? 0 60 rest
  return afterFraction rest

/-- What follows an offset from universal time, if there is one. -/
def afterOffset? : List Char → Option (List Char)
  | 'Z' :: rest => some rest
  | 'z' :: rest => some rest
  | '+' :: rest => do ranged? 0 59 (← after? ':' (← ranged? 0 23 rest))
  | '-' :: rest => do ranged? 0 59 (← after? ':' (← ranged? 0 23 rest))
  | cs => some cs

/-- What follows a time of day behind a date, if there is one. A blank there
need not belong to the date. -/
def afterDayTime? : List Char → Option (List Char)
  | ' ' :: rest =>
    match ranged? 0 23 rest with
    | some (':' :: _) => do afterOffset? (← afterTime? rest)
    | _ => some (' ' :: rest)
  | 'T' :: rest => do afterOffset? (← afterTime? rest)
  | 't' :: rest => do afterOffset? (← afterTime? rest)
  | cs => some cs

/-- A text starts as a date does. -/
def startsDate (cs : List Char) : Bool :=
  match fixed? 4 cs with
  | some (_, '-' :: _) => true
  | _ => false

/-- A text starts as a time of day does. -/
def startsTime (cs : List Char) : Bool :=
  match fixed? 2 cs with
  | some (_, ':' :: _) => true
  | _ => false

/-- A number, a date or a time. -/
def number? (cs : List Char) : Option (Toml × List Char) :=
  let momentTo (rest : List Char) : Toml × List Char :=
    (moment (String.ofList (cs.take (cs.length - rest.length))), rest)
  if startsDate cs then ((afterDate? cs).bind afterDayTime?).map momentTo
  else if startsTime cs then (afterTime? cs).map momentTo
  else decimalFloat? cs <|> namedFloat? cs <|> integer? cs

end PlaybookRunner.Toml
