import PlaybookRunner.Text.Blank

/-!
# Moments

A moment of universal time with nanoseconds, read and written in the notation
`2024-01-15T10:30:00.5+02:00`. A leap second has more than a thousand million
nanoseconds. Days are counted in the proleptic Gregorian calendar.
-/

namespace PlaybookRunner

/-- A moment: seconds from the start of 1970, and nanoseconds. -/
structure Moment where
  seconds : Int
  nanos : Nat := 0
deriving DecidableEq, Repr, Inhabited

namespace Moment

/-- The number of days from the start of 1970 to a day of the calendar. Years
are taken from March on, so that a leap day is the last of its year. -/
def dayNumber (year : Int) (month day : Nat) : Int :=
  let y := if month ≤ 2 then year - 1 else year
  let era := y / 400
  let yearOfEra := y - era * 400
  let dayOfYear := ((153 * ((month + 9) % 12) + 2) / 5 + (day - 1) : Nat)
  era * 146097 + (yearOfEra * 365 + yearOfEra / 4 - yearOfEra / 100 + dayOfYear) - 719468

/-- The year, month and day of a number of days from the start of 1970. -/
def calendar (days : Int) : Int × Nat × Nat :=
  let z := days + 719468
  let era := z / 146097
  let dayOfEra := (z - era * 146097).toNat
  let yearOfEra := (dayOfEra - dayOfEra / 1460 + dayOfEra / 36524 - dayOfEra / 146096) / 365
  let dayOfYear := dayOfEra - (365 * yearOfEra + yearOfEra / 4 - yearOfEra / 100)
  let shifted := (5 * dayOfYear + 2) / 153
  let day := dayOfYear - (153 * shifted + 2) / 5 + 1
  let month := if shifted < 10 then shifted + 3 else shifted - 9
  let year := era * 400 + yearOfEra
  (if month ≤ 2 then year + 1 else year, month, day)

/-- The year has a leap day. -/
def isLeap (year : Int) : Bool := year % 4 == 0 && (year % 100 != 0 || year % 400 == 0)

/-- The number of days of a month. -/
def monthLength (year : Int) (month : Nat) : Nat :=
  if month == 2 then (if isLeap year then 29 else 28)
  else if month == 4 || month == 6 || month == 9 || month == 11 then 30 else 31

/-- Years of the calendar that are supported. -/
def yearInRange (year : Int) : Bool := -262143 ≤ year && year ≤ 262142

/-! ## Writing -/

/-- A number in at least so many digits. -/
def padded (width n : Nat) : String :=
  let digits := toString n
  String.ofList (List.replicate (width - digits.length) '0') ++ digits

/-- A year: four digits, and a sign outside the range of these. -/
def yearText (year : Int) : String :=
  if 0 ≤ year ∧ year ≤ 9999 then padded 4 year.toNat
  else (if year < 0 then "-" else "+") ++ padded 4 year.natAbs

/-- The fraction of a second in as many groups of three digits as it needs. -/
def fractionText (nanos : Nat) : String :=
  if nanos == 0 then ""
  else if nanos % 1000000 == 0 then "." ++ padded 3 (nanos / 1000000)
  else if nanos % 1000 == 0 then "." ++ padded 6 (nanos / 1000)
  else "." ++ padded 9 nanos

/-- The date and the time of day without the offset. -/
def clockText (m : Moment) : String :=
  let days := m.seconds / 86400
  let second := (m.seconds - days * 86400).toNat
  let (year, month, day) := calendar days
  let leap := if m.nanos ≥ 1000000000 then 1 else 0
  yearText year ++ "-" ++ padded 2 month ++ "-" ++ padded 2 day ++ "T" ++
    padded 2 (second / 3600) ++ ":" ++ padded 2 (second / 60 % 60) ++ ":" ++
    padded 2 (second % 60 + leap) ++ fractionText (m.nanos - leap * 1000000000)

/-- A moment with the letter that stands for universal time. -/
def text (m : Moment) : String := m.clockText ++ "Z"

/-- A moment with a numeric offset. -/
def textWithOffset (m : Moment) : String := m.clockText ++ "+00:00"

/-! ## Reading -/

/-- The number that some digits form. -/
def numberOf (digits : List Char) : Nat := digits.foldl (fun n c => n * 10 + (c.toNat - 48)) 0

/-- Reads one digit up to so many, after white space. -/
def readNumber (width : Nat) (cs : List Char) : Option (Nat × List Char) :=
  let cs := Text.trimStart cs
  let digits := (cs.take width).takeWhile Char.isDigit
  if digits.isEmpty then none else some (numberOf digits, cs.drop digits.length)

/-- Reads a number within limits. -/
def readWithin (low high : Nat) (cs : List Char) : Option (Nat × List Char) :=
  (readNumber 2 cs).filter fun (n, _) => low ≤ n && n ≤ high

/-- Reads one character, after white space. -/
def readMark (mark : Char) (cs : List Char) : Option (List Char) :=
  match Text.trimStart cs with
  | c :: rest => if c == mark then some rest else none
  | [] => none

/-- Reads a year: four digits, or a sign and any number of them. -/
def readYear (cs : List Char) : Option (Int × List Char) :=
  match Text.trimStart cs with
  | '-' :: rest => signed rest fun n => -(n : Int)
  | '+' :: rest => signed rest fun n => (n : Int)
  | rest => (readNumber 4 rest).map fun (n, after) => ((n : Int), after)
where
  signed (rest : List Char) (sign : Nat → Int) : Option (Int × List Char) :=
    if (rest.head?.map Char.isDigit).getD false then
      (readNumber rest.length rest).map fun (n, after) => (sign n, after)
    else none

/-- Reads the fraction of a second, if there is one. -/
def readFraction : List Char → Option (Nat × List Char)
  | '.' :: rest =>
    let digits := rest.takeWhile Char.isDigit
    let kept := digits.take 9
    if digits.isEmpty then none
    else some (numberOf kept * Nat.pow 10 (9 - kept.length), rest.drop digits.length)
  | rest => some (0, rest)

/-- Reads two digits. -/
def readPair : List Char → Option (Nat × List Char)
  | a :: b :: rest =>
    if a.isDigit && b.isDigit then some (numberOf [a, b], rest) else none
  | _ => none

/-- Reads the hours and minutes of an offset, with colons or white space between. -/
def readSpan (cs : List Char) : Option (Int × List Char) := do
  let (hours, rest) ← readPair cs
  let (minutes, rest) ← readPair (rest.dropWhile fun c => c == ':' || Text.isBlank c)
  if minutes < 60 && hours < 24 then some ((hours * 3600 + minutes * 60 : Nat), rest) else none

/-- Reads an offset from universal time in seconds. -/
def readOffset (cs : List Char) : Option (Int × List Char) :=
  let cs := Text.trimStart cs
  if (cs.take 3).map Char.toUpper == ['U', 'T', 'C'] then some (0, cs.drop 3)
  else
    match cs with
    | [] => none
    | c :: rest =>
      if c == 'Z' || c == 'z' then some (0, rest)
      else if c == '+' then readSpan rest
      else if c == '-' || c.toNat == 0x2212 then
        (readSpan rest).map fun (n, after) => (-n, after)
      else none

/-- Reads a date. -/
def readDate (cs : List Char) : Option (Int × List Char) := do
  let (year, rest) ← readYear cs
  let (month, rest) ← readWithin 1 12 (← readMark '-' rest)
  let (day, rest) ← readWithin 1 31 (← readMark '-' rest)
  if day ≤ monthLength year month && yearInRange year then
    some (dayNumber year month day, rest)
  else none

/-- Reads a time of day: the seconds and the nanoseconds. -/
def readClock (cs : List Char) : Option (Nat × Nat × List Char) := do
  let (hour, rest) ← readWithin 0 23 cs
  let (minute, rest) ← readWithin 0 59 (← readMark ':' rest)
  let (second, rest) ← readWithin 0 60 (← readMark ':' rest)
  let (nanos, rest) ← readFraction rest
  let leap := second - 59
  return (hour * 3600 + minute * 60 + (second - leap), nanos + leap * 1000000000, rest)

/-- The letter or the space between a date and a time of day. -/
def isDateEnd (c : Char) : Bool := c == 'T' || c == 't' || c == ' '

/-- The moment that a text stands for. -/
def read? (s : String) : Option Moment := do
  let (days, rest) ← readDate s.toList
  let (second, nanos, rest) ← readClock (← if (rest.head?.map isDateEnd).getD false
    then some rest.tail else none)
  let (offset, rest) ← readOffset rest
  let seconds := days * 86400 + second - offset
  if Text.allBlank rest && yearInRange (calendar (seconds / 86400)).1 then
    some { seconds, nanos }
  else none

end Moment

end PlaybookRunner
