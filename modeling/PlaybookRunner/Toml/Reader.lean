import PlaybookRunner.Toml.Scalar

/-!
# Reading TOML

A document is a list of lines: keys with their values, headers, comments. A
value may go over several lines only inside brackets or long quotes.
-/

namespace PlaybookRunner.Toml

/-- How many brackets and braces may stand inside each other, and how many
parts a key may have. -/
def depthLimit : Nat := 79

/-- What follows a comment. -/
def skipComment (cs : List Char) : List Char := cs.dropWhile isText

/-- What follows blanks, comments and line breaks. -/
def skipLines : Nat → List Char → List Char
  | 0, cs => cs
  | fuel + 1, cs =>
    match skipBlanks cs with
    | '#' :: rest =>
      match afterBreak? (skipComment rest) with
      | some rest => skipLines fuel rest
      | none => '#' :: rest
    | cs =>
      match afterBreak? cs with
      | some rest => skipLines fuel rest
      | none => cs

/-- What follows the end of a line. -/
def afterLine? (cs : List Char) : Option (List Char) :=
  let rest :=
    match skipBlanks cs with
    | '#' :: rest => skipComment rest
    | rest => rest
  if rest.isEmpty then some [] else afterBreak? rest

/-! ## Keys -/

/-- A character of a key without quotes. -/
def isKeyChar (c : Char) : Bool := c.isAlphanum || c == '-' || c == '_'

/-- One part of a key. -/
def keyPart? (cs : List Char) : Option (String × List Char) :=
  match cs with
  | '"' :: _ => lineText? cs
  | '\'' :: _ => lineText? cs
  | _ =>
    let part := cs.takeWhile isKeyChar
    if part.isEmpty then none else some (String.ofList part, cs.drop part.length)

/-- A key of parts between dots, with blanks around it. -/
def key? : Nat → List Char → Option (List String × List Char)
  | 0, _ => none
  | fuel + 1, cs =>
    match keyPart? (skipBlanks cs) with
    | none => none
    | some (part, rest) =>
      match skipBlanks rest with
      | '.' :: rest => (key? fuel rest).map fun (parts, rest) => (part :: parts, rest)
      | rest => some ([part], rest)

/-! ## Values -/

/-- The table of dotted keys in braces. -/
def braced? (pairs : List (List String × Toml)) : Option Toml :=
  let add (fields : Fields) (pair : List String × Toml) : Option Fields :=
    match pair.1.getLast? with
    | some key => bind pair.1.dropLast key pair.2 fields
    | none => none
  (pairs.foldlM add []).map (table .braces)

mutual

/-- A value. -/
def value? (depth : Nat) : Nat → List Char → Option (Toml × List Char)
  | 0, _ => none
  | fuel + 1, cs =>
    match cs with
    | '[' :: rest =>
      match depth with
      | 0 => none
      | depth + 1 => (items? depth fuel rest).map fun (items, rest) => (array items, rest)
    | '\x7b' :: rest =>
      match depth with
      | 0 => none
      | depth + 1 =>
        match skipBlanks rest with
        | '\x7d' :: rest => some (table .braces [], rest)
        | rest =>
          match pairs? depth fuel rest with
          | some (pairs, rest) => (braced? pairs).map fun table => (table, rest)
          | none => none
    | 't' :: 'r' :: 'u' :: 'e' :: rest => some (bool true, rest)
    | 'f' :: 'a' :: 'l' :: 's' :: 'e' :: rest => some (bool false, rest)
    | _ => ((anyText? cs).map fun (s, rest) => (text s, rest)) <|> number? cs

/-- The items of an array and its closing bracket. -/
def items? (depth : Nat) : Nat → List Char → Option (List Toml × List Char)
  | 0, _ => none
  | fuel + 1, cs =>
    match skipLines cs.length cs with
    | ']' :: rest => some ([], rest)
    | cs =>
      match value? depth fuel cs with
      | none => none
      | some (item, rest) =>
        match skipLines rest.length rest with
        | ',' :: rest => (items? depth fuel rest).map fun (items, rest) => (item :: items, rest)
        | ']' :: rest => some ([item], rest)
        | _ => none

/-- The pairs of a table in braces and its closing brace. -/
def pairs? (depth : Nat) : Nat → List Char → Option (List (List String × Toml) × List Char)
  | 0, _ => none
  | fuel + 1, cs =>
    match key? depthLimit cs with
    | some (key, '=' :: rest) =>
      match value? depth fuel (skipBlanks rest) with
      | none => none
      | some (value, rest) =>
        match skipBlanks rest with
        | ',' :: rest =>
          (pairs? depth fuel rest).map fun (pairs, rest) => ((key, value) :: pairs, rest)
        | '\x7d' :: rest => some ([(key, value)], rest)
        | _ => none
    | _ => none

end

/-! ## Documents -/

/-- Reads a key and its value to the end of the line. -/
def readPair (cs : List Char) (d : Draft) : Option (Draft × List Char) :=
  match key? depthLimit cs with
  | some (key, '=' :: rest) => do
    let (value, rest) ← value? depthLimit (2 * rest.length + 2) (skipBlanks rest)
    return (← d.bind key value, ← afterLine? rest)
  | _ => none

/-- Reads a header to the end of the line, after its opening brackets. -/
def readHeader (isItem : Bool) (cs : List Char) (d : Draft) : Option (Draft × List Char) := do
  let (key, rest) ← key? depthLimit cs
  let rest ← after? ']' rest
  if isItem then
    let rest ← after? ']' rest
    return (← d.itemHeader key, ← afterLine? rest)
  else return (← d.header key, ← afterLine? rest)

/-- Reads all lines. -/
def readLines : Nat → List Char → Draft → Option Draft
  | 0, _, _ => none
  | fuel + 1, cs, d =>
    match skipBlanks cs with
    | [] => some d
    | '[' :: '[' :: rest => do
      let (d, rest) ← readHeader true rest d
      readLines fuel rest d
    | '[' :: rest => do
      let (d, rest) ← readHeader false rest d
      readLines fuel rest d
    | '#' :: rest => do
      let rest ← afterLine? ('#' :: rest)
      readLines fuel rest d
    | cs =>
      match afterBreak? cs with
      | some rest => readLines fuel rest d
      | none => do
        let (d, rest) ← readPair cs d
        readLines fuel rest d

/-- The document of a text, which may start with a byte order mark. -/
def read? (s : String) : Option Toml := do
  let cs :=
    match s.toList with
    | c :: rest => if c.toNat == 0xFEFF then rest else c :: rest
    | [] => []
  let d ← readLines (cs.length + 1) cs {}
  return table .header (← d.settle)

end PlaybookRunner.Toml
