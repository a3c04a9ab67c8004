import PlaybookRunner.Decimal.Shortest

/-!
# Layouts of shortest decimals

One digit generator serves two texts. A layout says which magnitudes are
written positionally, whether a whole number keeps a zero after its point, and
how an exponent is marked.
-/

namespace PlaybookRunner.Decimal

/-- How a number is laid out. -/
structure Layout where
  /-- Decimal exponents of the leading digit that are written positionally. -/
  positional : Int → Bool
  /-- A whole number in positional form ends in `.0`. -/
  wholePoint : Bool
  /-- A positive exponent carries a plus sign. -/
  plusSign : Bool

/-- Always positional, a whole number without a point. -/
def plainLayout : Layout := { positional := fun _ => true, wholePoint := false, plusSign := false }

/-- Positional from `0.00001` up to sixteen whole digits, else with exponent. -/
def jsonLayout : Layout :=
  { positional := fun e => decide (-5 ≤ e) && decide (e ≤ 15), wholePoint := true,
    plusSign := true }

/-- The digits of a decimal from the most significant. -/
def Numeral.digitChars (d : Numeral) : List Char := Nat.toDigits 10 d.digits

/-- The power of ten of the leading digit. -/
def Numeral.leadingExponent (d : Numeral) : Int := d.exponent + d.digitChars.length - 1

/-- Positional notation. -/
def Numeral.positional (d : Numeral) (wholePoint : Bool) : List Char :=
  let ds := d.digitChars
  if 0 ≤ d.exponent then
    ds ++ List.replicate d.exponent.toNat '0' ++ (if wholePoint then ['.', '0'] else [])
  else
    let places := (-d.exponent).toNat
    if places < ds.length then
      ds.take (ds.length - places) ++ '.' :: ds.drop (ds.length - places)
    else '0' :: '.' :: List.replicate (places - ds.length) '0' ++ ds

/-- Notation with one digit before the point and a power of ten. -/
def Numeral.scientific (d : Numeral) (plusSign : Bool) : List Char :=
  let mantissa :=
    match d.digitChars with
    | [] => []
    | c :: [] => [c]
    | c :: rest => c :: '.' :: rest
  let e := d.leadingExponent
  mantissa ++ 'e' :: (if e < 0 then ['-'] else if plusSign then ['+'] else []) ++
    Nat.toDigits 10 e.natAbs

/-- A positive decimal in a layout. -/
def Layout.text (layout : Layout) (d : Numeral) : List Char :=
  if layout.positional d.leadingExponent then d.positional layout.wholePoint
  else d.scientific layout.plusSign

/-- A finite double in a layout. -/
def Layout.finite (layout : Layout) (x : Float) : String :=
  let body :=
    if x == 0 then (if layout.wholePoint then ['0', '.', '0'] else ['0'])
    else layout.text (Binary.ofFloat x).shortest
  String.ofList (if signBit x then '-' :: body else body)

/-- A double as plain text: positional digits, or `NaN`, `inf`, `-inf`. -/
def plainText (x : Float) : String :=
  if x.isNaN then "NaN"
  else if x.isInf then (if signBit x then "-inf" else "inf")
  else plainLayout.finite x

end PlaybookRunner.Decimal
