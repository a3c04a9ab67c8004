import PlaybookRunner.Text.Search

/-!
# Patterns of lines

A pattern has alternatives. Each is a row of elements, which an anchor may bind
to the start or the end of the line. An element stands for one character of a
class, and may repeat; more repetitions are preferred to fewer. Of all places
where a pattern fits the first one counts.
-/

namespace PlaybookRunner

/-- A class of characters that may repeat. -/
structure PatternElement where
  admits : Char → Bool
  /-- The element may be absent. -/
  optional : Bool := false
  /-- The element may stand several times. -/
  repeats : Bool := false

/-- A row of elements and its anchors. -/
structure PatternRow where
  fromStart : Bool := false
  elements : List PatternElement := []
  toEnd : Bool := false

/-- A pattern: it fits where one of its rows fits. -/
abbrev LinePattern := List PatternRow

namespace LinePattern

/-- What can be left of a text after an element, the preferred rest first. -/
def restsAfter (e : PatternElement) (cs : List Char) : List (List Char) :=
  let found := (cs.takeWhile e.admits).length
  let most := if e.repeats then found else min found 1
  let least := if e.optional then 0 else 1
  (List.range (most + 1 - least)).map fun n => cs.drop (most - n)

/-- What can be left of a text after a row of elements, the preferred rest first. -/
def restsAfterAll : List PatternElement → List Char → List (List Char)
  | [], cs => [cs]
  | e :: more, cs => (restsAfter e cs).flatMap (restsAfterAll more)

/-- What a row leaves of a text at whose start it fits. -/
def rowRest? (row : PatternRow) (atStart : Bool) (cs : List Char) : Option (List Char) :=
  if row.fromStart && !atStart then none
  else (restsAfterAll row.elements cs).find? fun rest => !row.toEnd || rest.isEmpty

/-- What is left of a text at whose start the pattern fits. -/
def rest? (pattern : LinePattern) (atStart : Bool) (cs : List Char) : Option (List Char) :=
  pattern.findSome? fun row => rowRest? row atStart cs

/-- The first place at which the pattern fits: what stands before it, what it
takes, and what is left. -/
def first? (pattern : LinePattern) (atStart : Bool) :
    List Char → Option (List Char × List Char × List Char)
  | [] => (rest? pattern atStart []).map fun rest => ([], [], rest)
  | c :: cs =>
    match rest? pattern atStart (c :: cs) with
    | some rest => some ([], (c :: cs).take (cs.length + 1 - rest.length), rest)
    | none => (first? pattern false cs).map fun (before, hit, rest) => (c :: before, hit, rest)

/-- The pattern fits somewhere in a line. -/
def fits (pattern : LinePattern) (line : List Char) : Bool := (first? pattern true line).isSome

/-- A line with what the pattern takes replaced, once or wherever it fits. -/
def replaced (pattern : LinePattern) (everywhere : Bool) (replacement : List Char → List Char) :
    Nat → Bool → List Char → List Char
  | 0, _, cs => cs
  | fuel + 1, atStart, cs =>
    match first? pattern atStart cs with
    | none => cs
    | some (before, hit, rest) =>
      let start := before ++ replacement hit
      if !everywhere then start ++ rest
      else
        match hit, rest with
        | [], [] => start
        | [], c :: rest => start ++ c :: replaced pattern everywhere replacement fuel false rest
        | _, rest => start ++ replaced pattern everywhere replacement fuel false rest

/-- A named class of characters. -/
def namedClass (name : String) (c : Char) : Bool :=
  match name with
  | "digit" => c.isDigit
  | "alpha" => c.isAlpha
  | "alnum" => c.isAlphanum
  | "upper" => c.isUpper
  | "lower" => c.isLower
  | "space" => c == ' ' || (9 ≤ c.toNat && c.toNat ≤ 13)
  | "blank" => c == ' ' || c == '\t'
  | "punct" => 32 < c.toNat && c.toNat < 127 && !c.isAlphanum
  | _ => false

/-- Reads the members of a set up to its closing bracket. -/
def readMembers : Nat → List Char → (Char → Bool) × List Char
  | 0, cs => (fun _ => false, cs)
  | _, [] => (fun _ => false, [])
  | _, ']' :: rest => (fun _ => false, rest)
  | fuel + 1, '[' :: ':' :: rest =>
    let name := String.ofList (rest.takeWhile (· != ':'))
    let (more, rest) := readMembers fuel ((rest.dropWhile (· != ':')).drop 2)
    (fun c => namedClass name c || more c, rest)
  | fuel + 1, a :: '-' :: b :: rest =>
    if b == ']' then
      let (more, rest) := readMembers fuel ('-' :: b :: rest)
      (fun c => c == a || more c, rest)
    else
      let (more, rest) := readMembers fuel rest
      (fun c => (a ≤ c && c ≤ b) || more c, rest)
  | fuel + 1, a :: rest =>
    let (more, rest) := readMembers fuel rest
    (fun c => c == a || more c, rest)

/-- Reads a set after its opening bracket; a bracket that stands first is a member. -/
def readSet (cs : List Char) : (Char → Bool) × List Char :=
  let (negated, cs) := match cs with
    | '^' :: rest => (true, rest)
    | cs => (false, cs)
  let (members, rest) := match cs with
    | ']' :: rest =>
      let (more, rest) := readMembers rest.length rest
      ((fun c => c == ']' || more c), rest)
    | cs => readMembers cs.length cs
  (fun c => members c != negated, rest)

/-- Reads the marks of repetition after an element. -/
def readRepetition (extended : Bool) (e : PatternElement) : List Char → PatternElement × List Char
  | '*' :: rest => ({ e with optional := true, repeats := true }, rest)
  | '\\' :: '+' :: rest => if extended then (e, '\\' :: '+' :: rest) else ({ e with repeats := true }, rest)
  | '\\' :: '?' :: rest => if extended then (e, '\\' :: '?' :: rest) else ({ e with optional := true }, rest)
  | '+' :: rest => if extended then ({ e with repeats := true }, rest) else (e, '+' :: rest)
  | '?' :: rest => if extended then ({ e with optional := true }, rest) else (e, '?' :: rest)
  | rest => (e, rest)

/-- Reads rows of elements. In the extended form a bar stands between rows and
marks of repetition need no backslash. -/
def readRows (extended : Bool) : Nat → List Char → PatternRow → LinePattern
  | 0, _, row => [row]
  | _, [], row => [row]
  | fuel + 1, c :: rest, row =>
    let element (admits : Char → Bool) (rest : List Char) : LinePattern :=
      let (e, rest) := readRepetition extended { admits } rest
      readRows extended fuel rest { row with elements := row.elements ++ [e] }
    match c, rest with
    | '^', rest =>
      if row.elements.isEmpty && !row.fromStart then
        readRows extended fuel rest { row with fromStart := true }
      else element (· == '^') rest
    | '$', [] => [{ row with toEnd := true }]
    | '$', '|' :: rest =>
      if extended then { row with toEnd := true } :: readRows extended fuel rest {}
      else element (· == '$') ('|' :: rest)
    | '|', rest =>
      if extended then row :: readRows extended fuel rest {} else element (· == '|') rest
    | '\\', '|' :: rest =>
      if extended then element (· == '|') rest else row :: readRows extended fuel rest {}
    | '\\', d :: rest => element (· == d) rest
    | '.', rest => element (fun _ => true) rest
    | '[', rest =>
      let (admits, rest) := readSet rest
      element admits rest
    | c, rest => element (· == c) rest

/-- The pattern that a text describes. -/
def ofText (extended : Bool) (text : String) : LinePattern :=
  readRows extended (text.length + 1) text.toList {}

/-- The pattern that is the text itself. -/
def literal (text : String) : LinePattern :=
  [{ elements := text.toList.map fun c => { admits := (· == c) } }]

/-- The pattern that takes no notice of case. -/
def anyCase (pattern : LinePattern) : LinePattern :=
  pattern.map fun row => { row with
    elements := row.elements.map fun e => { e with
      admits := fun c => e.admits c.toLower || e.admits c.toUpper } }

/-- The pattern bound to whole lines. -/
def wholeLine (pattern : LinePattern) : LinePattern :=
  pattern.map fun row => { row with fromStart := true, toEnd := true }

end LinePattern

end PlaybookRunner
