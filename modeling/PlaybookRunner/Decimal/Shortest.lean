/-!
# The fewest digits that read back

A finite positive double is `m * 2 ^ q`. The reals that round to it form an
interval around it, closed when `m` is even. The shortest decimal is found on
the first decimal grid one of whose two points next to the value lies in that
interval; of two such points the nearer is taken. All arithmetic is exact.
-/

namespace PlaybookRunner.Decimal

/-- A positive decimal `digits * 10 ^ exponent`. -/
structure Numeral where
  digits : Nat
  exponent : Int
deriving Repr, DecidableEq, Inhabited

/-- A positive binary number `significand * 2 ^ exponent` of a fixed format;
`narrowBelow` holds when the next smaller number is half a step away. -/
structure Binary where
  significand : Nat
  exponent : Int
  narrowBelow : Bool
deriving Repr, DecidableEq

/-- The rounding interval in quarters of a unit in the last place. -/
structure Interval where
  low : Nat
  value : Nat
  high : Nat
  closed : Bool

/-- The interval of reals that round to a binary number. -/
def Binary.interval (b : Binary) : Interval :=
  { low := if b.narrowBelow then 4 * b.significand - 1 else 4 * b.significand - 2
    value := 4 * b.significand
    high := 4 * b.significand + 2
    closed := b.significand % 2 == 0 }

/-- The quarter units of `b`, as a fraction `scale.1 / scale.2`. -/
def Binary.scale (b : Binary) : Nat × Nat :=
  let e := b.exponent - 2
  if 0 ≤ e then (Nat.pow 2 e.toNat, 1) else (1, Nat.pow 2 (-e).toNat)

/-- Grid steps and quarter units over one denominator: `steps` of a grid point
`d` is `d * grid`, `quarters` of a bound `x` is `x * unit`. -/
structure Grid where
  grid : Nat
  unit : Nat

/-- The grid of multiples of `10 ^ exponent` beside the quarter units of `b`. -/
def Binary.gridAt (b : Binary) (exponent : Int) : Grid :=
  let (num, den) := b.scale
  if 0 ≤ exponent then { grid := den * Nat.pow 10 exponent.toNat, unit := num }
  else { grid := den, unit := num * Nat.pow 10 (-exponent).toNat }

/-- A grid point rounds to the value the interval belongs to. -/
def Grid.hits (g : Grid) (i : Interval) (d : Nat) : Bool :=
  let x := d * g.grid
  let lo := i.low * g.unit
  let hi := i.high * g.unit
  if i.closed then lo ≤ x && x ≤ hi else lo < x && x < hi

/-- The point of a grid that stands for the value, if one does. -/
def Grid.nearest? (g : Grid) (i : Interval) : Option Nat :=
  let v := i.value * g.unit
  let below := v / g.grid
  let above := below + 1
  let down := v - below * g.grid
  let up := above * g.grid - v
  match g.hits i below, g.hits i above with
  | true, true =>
    if down < up then some below
    else if up < down then some above
    else some (if below % 2 == 0 then below else above)
  | true, false => some below
  | false, true => some above
  | false, false => none

/-- Searches the grids `10 ^ exponent`, `10 ^ (exponent - 1)`, … for a hit. -/
def Binary.searchGrids (b : Binary) : Nat → Int → Numeral
  | 0, exponent => { digits := 0, exponent }
  | n + 1, exponent =>
    match (b.gridAt exponent).nearest? b.interval with
    | some d => if d == 0 then b.searchGrids n (exponent - 1) else { digits := d, exponent }
    | none => b.searchGrids n (exponent - 1)

/-- Moves trailing zeros of the digits into the exponent. -/
def Numeral.stripZeros (d : Numeral) : Nat → Numeral
  | 0 => d
  | n + 1 =>
    if d.digits != 0 && d.digits % 10 == 0 then
      Numeral.stripZeros { digits := d.digits / 10, exponent := d.exponent + 1 } n
    else d

/-- The shortest decimal that rounds to `b`: the search starts at a grid coarser
than the value and ends at the latest where 17 digits are available. -/
def Binary.shortest (b : Binary) : Numeral :=
  let magnitude := (((b.significand.log2 : Int) + b.exponent) * 30103) / 100000 + 1
  (b.searchGrids 22 magnitude).stripZeros 40

/-- The binary form of a finite double other than zero, sign dropped. -/
def Binary.ofFloat (x : Float) : Binary :=
  let bits := x.toBits.toNat
  let fraction : Nat := bits % Nat.pow 2 52
  let biased : Nat := (bits / Nat.pow 2 52) % Nat.pow 2 11
  if biased == 0 then { significand := fraction, exponent := -1074, narrowBelow := false }
  else
    { significand := Nat.pow 2 52 + fraction, exponent := (biased : Int) - 1075,
      narrowBelow := fraction == 0 && 1 < biased }

/-- The sign bit of a double. -/
def signBit (x : Float) : Bool := Nat.pow 2 63 ≤ x.toBits.toNat

end PlaybookRunner.Decimal
