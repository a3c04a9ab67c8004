/-!
# Reading numbers

Whole numbers in a range of words, and doubles in decimal notation rounded to
the nearest.
-/

namespace PlaybookRunner.Decimal

/-- The number of a nonempty list of decimal digits. -/
def digits? (cs : List Char) : Option Nat :=
  if cs.isEmpty || !cs.all Char.isDigit then none
  else some (cs.foldl (fun n c => 10 * n + (c.toNat - '0'.toNat)) 0)

/-- A number without sign, or with a plus sign. -/
def natural? (cs : List Char) : Option Nat :=
  match cs with
  | '+' :: rest => digits? rest
  | _ => digits? cs

/-- A whole number with an optional sign. -/
def whole? (cs : List Char) : Option Int :=
  match cs with
  | '-' :: rest => (digits? rest).map fun n => -(n : Int)
  | _ => (natural? cs).map Int.ofNat

/-- The first number beyond the 64-bit words with a sign. -/
def signedBound : Nat := 9223372036854775808

/-- The first number beyond the 64-bit words without a sign. -/
def unsignedBound : Nat := 18446744073709551616

/-- The range of 64-bit words with a sign. -/
def fitsWord (n : Int) : Bool := decide (-(signedBound : Int) ≤ n) && decide (n < (signedBound : Int))

theorem fitsWord_iff {n : Int} :
    fitsWord n = true ↔ -9223372036854775808 ≤ n ∧ n < 9223372036854775808 := by
  rw [fitsWord, Bool.and_eq_true, decide_eq_true_iff, decide_eq_true_iff]
  rfl

theorem fitsWord_toInt (n : Int64) : fitsWord n.toInt = true :=
  fitsWord_iff.mpr ⟨n.le_toInt, n.toInt_lt⟩

theorem toInt_ofInt_of_fitsWord {n : Int} (h : fitsWord n = true) : (Int64.ofInt n).toInt = n :=
  Int64.toInt_ofInt_of_le (fitsWord_iff.mp h).1 (fitsWord_iff.mp h).2

/-- A whole number that fits a 64-bit word. -/
def word? (s : String) : Option Int64 :=
  match whole? s.toList with
  | some n => if fitsWord n then some (Int64.ofInt n) else none
  | none => none

/-- An index into a list: a number without minus sign that fits 64 bits. -/
def index? (s : String) : Option Nat :=
  match natural? s.toList with
  | some n => if n < unsignedBound then some n else none
  | none => none

/-- The double nearest to `mantissa * 10 ^ exponent`. -/
def nearestFloat (mantissa : Nat) (exponent : Int) : Float :=
  if mantissa == 0 then 0
  else
    let magnitude := exponent + (Nat.toDigits 10 mantissa).length
    if 400 < magnitude then Float.ofScientific 1 false 999
    else if magnitude < -400 then 0
    else Float.ofScientific mantissa (decide (exponent < 0)) exponent.natAbs

/-- Splits digits off the front. -/
def spanDigits (cs : List Char) : List Char × List Char := cs.span Char.isDigit

/-- The exponent part of a decimal: nothing, or `e`, a sign and digits to the end. -/
def exponentPart? (cs : List Char) : Option Int :=
  match cs with
  | [] => some 0
  | e :: rest =>
    if e == 'e' || e == 'E' then
      match rest with
      | '-' :: ds => (digits? ds).map fun n => -(n : Int)
      | '+' :: ds => (digits? ds).map Int.ofNat
      | ds => (digits? ds).map Int.ofNat
    else none

/-- A decimal without sign: digits with an optional point, at least one digit,
and an optional exponent. -/
def unsignedFloat? (cs : List Char) : Option Float :=
  let (whole, afterWhole) := spanDigits cs
  let (fraction, afterFraction) :=
    match afterWhole with
    | '.' :: rest => spanDigits rest
    | rest => ([], rest)
  match digits? (whole ++ fraction), exponentPart? afterFraction with
  | some mantissa, some exponent => some (nearestFloat mantissa (exponent - fraction.length))
  | _, _ => none

/-- The words for values that are not finite, in any case. -/
def specialFloat? (cs : List Char) : Option Float :=
  match String.ofList (cs.map Char.toLower) with
  | "inf" | "infinity" => some (Float.ofScientific 1 false 999)
  | "nan" => some (0.0 / 0.0)
  | _ => none

/-- A double in decimal notation, or one of the words for infinity and no number. -/
def float? (s : String) : Option Float :=
  let read (cs : List Char) : Option Float :=
    match unsignedFloat? cs with
    | some x => some x
    | none => specialFloat? cs
  match s.toList with
  | '-' :: rest => (read rest).map fun x => -x
  | '+' :: rest => read rest
  | cs => read cs

end PlaybookRunner.Decimal
