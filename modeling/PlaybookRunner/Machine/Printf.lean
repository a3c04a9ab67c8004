import PlaybookRunner.Decimal.Reader
import PlaybookRunner.Decimal.Shortest
import PlaybookRunner.Machine.Process

/-!
# Formatted printing

A format is copied with its escapes replaced; a directive takes the next
argument. While arguments remain the format is used again.
-/

namespace PlaybookRunner.Printf

/-- The escapes of a single letter. -/
def letterEscape? (c : Char) : Option UInt8 :=
  match c with
  | 'a' => some 7
  | 'b' => some 8
  | 'f' => some 12
  | 'n' => some 10
  | 'r' => some 13
  | 't' => some 9
  | 'v' => some 11
  | '\\' => some 92
  | _ => none

/-- An octal digit. -/
def isOctal (c : Char) : Bool := '0' ≤ c && c ≤ '7'

/-- The number of some digits in a base. -/
def digitsValue (base : Nat) (digits : List Char) : Nat :=
  digits.foldl (fun n c =>
    n * base + (if c.isDigit then c.toNat - 48 else c.toLower.toNat - 87)) 0

/-- What an escape brings: bytes, or the end of all printing; and the rest. -/
inductive Escape
  | bytes (bytes : Bytes) (rest : List Char)
  | stop

/-- Reads what follows a backslash. In an argument an octal escape starts with a
zero that does not count as one of its three digits. -/
def readEscape (inArgument : Bool) : List Char → Escape
  | [] => .bytes [92] []
  | c :: rest =>
    match letterEscape? c with
    | some b => .bytes [b] rest
    | none =>
      if c == 'c' then .stop
      else if c == '"' || c == '\'' then
        (if inArgument then .bytes (92 :: Bytes.ofChar c) rest else .bytes (Bytes.ofChar c) rest)
      else if isOctal c then
        let digits := if inArgument && c == '0' then (rest.take 3).takeWhile isOctal
          else ((c :: rest).take 3).takeWhile isOctal
        let used := if inArgument && c == '0' then digits.length else digits.length - 1
        .bytes [UInt8.ofNat (digitsValue 8 digits)] (rest.drop used)
      else .bytes (92 :: Bytes.ofChar c) rest

/-- A text with its escapes replaced, and whether printing goes on after it. -/
def unescape (inArgument : Bool) : Nat → List Char → Bytes × Bool
  | _, [] => ([], true)
  | 0, _ :: _ => ([], true)
  | fuel + 1, '\\' :: rest =>
    match readEscape inArgument rest with
    | .stop => ([], false)
    | .bytes bytes rest =>
      let (more, goesOn) := unescape inArgument fuel rest
      (bytes ++ more, goesOn)
  | fuel + 1, c :: rest =>
    let (more, goesOn) := unescape inArgument fuel rest
    (Bytes.ofChar c ++ more, goesOn)

/-- A directive: its flags, width, precision and letter. -/
structure Directive where
  flags : List Char
  width : Nat
  precision : Option Nat
  letter : Char

/-- Bytes at the right or the left of a field. -/
def Directive.pad (d : Directive) (bytes : Bytes) : Bytes :=
  let blanks := List.replicate (d.width - bytes.length) (32 : UInt8)
  if d.flags.contains '-' then bytes ++ blanks else blanks ++ bytes

/-- A number in its field: sign, zeros and digits. -/
def Directive.number (d : Directive) (sign digits : String) : Bytes :=
  let zeros (n : Nat) : String := String.ofList (List.replicate (n - digits.length) '0')
  match d.precision with
  | some p => d.pad (Bytes.ofText (sign ++ zeros p ++ digits))
  | none =>
    if d.flags.contains '0' && !d.flags.contains '-' then
      Bytes.ofText (sign ++ zeros (d.width - sign.length) ++ digits)
    else d.pad (Bytes.ofText (sign ++ digits))

/-- What is wrong with a format or with an argument. -/
inductive Fault
  /-- An argument is not a number at all. -/
  | notNumber (arg : String)
  /-- Only the start of an argument is a number. -/
  | partlyNumber (arg : String)
  /-- A directive that there is not. -/
  | badDirective (directive : String)
  /-- Arguments that a format without directives does not take. -/
  | excess (arg : String)
deriving DecidableEq, Repr

/-- The words of the program for a fault. -/
def Fault.message : Fault → String
  | notNumber arg => "printf: '" ++ arg ++ "': expected a numeric value"
  | partlyNumber arg => "printf: '" ++ arg ++ "': value not completely converted"
  | badDirective directive => "printf: " ++ directive ++ ": invalid conversion specification"
  | excess arg => "printf: warning: ignoring excess arguments, starting with '" ++ arg ++ "'"

/-- The words of the shell for a fault, which does not mind excess arguments. -/
def Fault.shellMessage? : Fault → Option String
  | notNumber arg => some ("printf: " ++ arg ++ ": expected numeric value")
  | partlyNumber arg => some ("printf: " ++ arg ++ ": not completely converted")
  | badDirective "%" => some "printf: missing format character"
  | badDirective directive => some ("printf: " ++ directive ++ ": invalid directive")
  | excess _ => none

/-- The digits of a number at the start of a text, with its base. -/
def leadingDigits (cs : List Char) : Nat × List Char × List Char :=
  let isHex (c : Char) : Bool := c.isDigit || ('a' ≤ c.toLower && c.toLower ≤ 'f')
  let ofBase (base : Nat) (digits rest : List Char) : Nat × List Char × List Char :=
    (base, digits, rest.drop digits.length)
  match cs with
  | '0' :: x :: rest =>
    let digits := rest.takeWhile isHex
    if (x == 'x' || x == 'X') && !digits.isEmpty then ofBase 16 digits rest
    else ofBase 8 (cs.takeWhile isOctal) cs
  | cs => ofBase 10 (cs.takeWhile Char.isDigit) cs

/-- The whole number that an argument stands for, and what is wrong with it. -/
def integer (arg : String) : Int × Option Fault :=
  match arg.toList with
  | [] => (0, none)
  | '\'' :: c :: _ => (c.toNat, none)
  | '"' :: c :: _ => (c.toNat, none)
  | '-' :: rest => signed (-1) rest
  | '+' :: rest => signed 1 rest
  | cs => signed 1 cs
where
  signed (sign : Int) (cs : List Char) : Int × Option Fault :=
    let (base, digits, rest) := leadingDigits cs
    if digits.isEmpty then (0, some (.notNumber arg))
    else (sign * digitsValue base digits, if rest.isEmpty then none else some (.partlyNumber arg))

/-- The magnitude of a double with a number of places, a half going to the even
neighbour. -/
def fixedPlaces (places : Nat) (x : Float) : String :=
  let b := Decimal.Binary.ofFloat x
  let num := b.significand * Nat.pow 10 places * Nat.pow 2 b.exponent.toNat
  let den := Nat.pow 2 (-b.exponent).toNat
  let below := num / den
  let twice := 2 * (num % den)
  let n := if twice > den || (twice == den && below % 2 == 1) then below + 1 else below
  let digits := (toString n).toList
  let digits := List.replicate (places + 1 - digits.length) '0' ++ digits
  let whole := digits.take (digits.length - places)
  String.ofList (if places == 0 then whole else whole ++ '.' :: digits.drop whole.length)

/-- What has been printed so far, the arguments that remain, and what is wrong. -/
structure Printing where
  bytes : Bytes := []
  args : List String
  used : Bool := false
  faults : List Fault := []

/-- The next argument; the empty one when there is none. -/
def Printing.next (p : Printing) : String × Printing :=
  match p.args with
  | [] => ("", p)
  | arg :: rest => (arg, { p with args := rest, used := true })

/-- Adds bytes. -/
def Printing.add (p : Printing) (bytes : Bytes) : Printing := { p with bytes := p.bytes ++ bytes }

/-- Notes what is wrong. -/
def Printing.blame (p : Printing) (fault : Fault) : Printing :=
  { p with faults := p.faults ++ [fault] }

/-- Prints one argument under a directive; answers whether printing goes on. -/
def Directive.print (d : Directive) (p : Printing) : Printing × Bool :=
  let (arg, p) := p.next
  match d.letter with
  | 's' =>
    let bytes := Bytes.ofText arg
    (p.add (d.pad (match d.precision with | some n => bytes.take n | none => bytes)), true)
  | 'c' => (p.add (d.pad ((Bytes.ofText arg).take 1)), true)
  | 'b' =>
    let (bytes, goesOn) := unescape true arg.length arg.toList
    (p.add (d.pad bytes), goesOn)
  | 'f' =>
    let (x, p) := match Decimal.float? arg with
      | some x => (x, p)
      | none => (0, if arg == "" then p else p.blame (.notNumber arg))
    let sign := if Decimal.signBit x then "-" else if d.flags.contains '+' then "+"
      else if d.flags.contains ' ' then " " else ""
    let d' := { d with precision := none }
    (p.add (d'.number sign (fixedPlaces (d.precision.getD 6) x)), true)
  | letter =>
    let (n, fault) := integer arg
    let p := match fault with
      | some fault => p.blame fault
      | none => p
    let magnitude : Nat :=
      if letter == 'd' || letter == 'i' then n.natAbs
      else if n < 0 then (n + 18446744073709551616).toNat else n.toNat
    let sign := if letter == 'd' || letter == 'i' then
        (if n < 0 then "-" else if d.flags.contains '+' then "+"
          else if d.flags.contains ' ' then " " else "")
      else ""
    let base := if letter == 'o' then 8 else if letter == 'x' || letter == 'X' then 16 else 10
    let digits := Nat.toDigits base magnitude
    let digits := if letter == 'X' then digits.map Char.toUpper else digits
    (p.add (d.number sign (String.ofList digits)), true)

/-- Reads a width or a precision: digits, or a star that takes an argument. -/
def readCount (cs : List Char) (p : Printing) : Nat × List Char × Printing :=
  match cs with
  | '*' :: rest =>
    let (arg, p) := p.next
    ((integer arg).1.toNat, rest, p)
  | cs =>
    let digits := cs.takeWhile Char.isDigit
    (digitsValue 10 digits, cs.drop digits.length, p)

/-- Reads a directive after its percent sign, or finds that there is none such. -/
def readDirective (cs : List Char) (p : Printing) :
    Except Fault (Directive × List Char × Printing) :=
  let flags := cs.takeWhile fun c => c == '-' || c == '+' || c == ' ' || c == '0' || c == '#'
  let (width, rest, p) := readCount (cs.drop flags.length) p
  let (precision, rest, p) :=
    match rest with
    | '.' :: rest =>
      let (n, rest, p) := readCount rest p
      (some n, rest, p)
    | rest => (none, rest, p)
  match rest with
  | letter :: rest =>
    if "sdiouxXcbf".toList.contains letter then .ok ({ flags, width, precision, letter }, rest, p)
    else .error (.badDirective (String.ofList ('%' :: cs.take (cs.length - rest.length))))
  | [] => .error (.badDirective (String.ofList ('%' :: cs)))

/-- Goes through a format once; answers whether printing goes on. -/
def once : Nat → List Char → Printing → Printing × Bool
  | _, [], p => (p, true)
  | 0, _ :: _, p => (p, false)
  | fuel + 1, '%' :: '%' :: rest, p => once fuel rest (p.add [37])
  | fuel + 1, '%' :: rest, p =>
    match readDirective rest p with
    | .error fault => (p.blame fault, false)
    | .ok (directive, rest, p) =>
      match directive.print p with
      | (p, true) => once fuel rest p
      | (p, false) => (p, false)
  | fuel + 1, '\\' :: rest, p =>
    match readEscape false rest with
    | .stop => (p, false)
    | .bytes bytes rest => once fuel rest (p.add bytes)
  | fuel + 1, c :: rest, p => once fuel rest (p.add (Bytes.ofChar c))

/-- Goes through a format until no argument remains or it takes none. -/
def repeated (format : List Char) : Nat → Printing → Printing
  | 0, p => p
  | rounds + 1, p =>
    match once format.length format { p with used := false } with
    | (p, false) => p
    | (p, true) =>
      match p.args with
      | [] => p
      | arg :: _ => if p.used then repeated format rounds p else p.blame (.excess arg)

/-- What a format and its arguments print. -/
def printed (format : String) (args : List String) : Printing :=
  repeated format.toList (args.length + 1) { args }

/-- The operands after a double dash that may stand first. -/
def operands (args : List String) : List String :=
  match args with
  | "--" :: rest => rest
  | args => args

/-- The program that prints its arguments by a format. -/
def program : Program := fun args => do
  match operands args with
  | [] => do
    Process.complain "printf: missing operand\nTry 'printf --help' for more information."
    return 1
  | format :: args => do
    let p := printed format args
    Process.write .output p.bytes
    for fault in p.faults do
      Process.complain fault.message
    return (if p.faults.all fun fault => fault matches .excess _ then 0 else 1)

end PlaybookRunner.Printf
