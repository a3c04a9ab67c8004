/-!
# Places in a YAML text

A cursor is a place in a text with its line and column. Line breaks are line
feeds, carriage returns, both together, and three characters of Unicode.
-/

namespace PlaybookRunner.Yaml

/-- A place in a text. -/
structure Cursor where
  rest : List Char
  index : Nat := 0
  line : Nat := 0
  column : Nat := 0
deriving Inhabited

/-- A line break. -/
def isBreak (c : Char) : Bool :=
  c == '\n' || c == '\r' || c.toNat == 0x85 || c.toNat == 0x2028 || c.toNat == 0x2029

/-- A space or a tab. -/
def isBlank (c : Char) : Bool := c == ' ' || c == '\t'

/-- A place where a blank, a line break or the end stands. -/
def endsWord : Option Char → Bool
  | none => true
  | some c => isBlank c || isBreak c

/-- A character of names. -/
def isWord (c : Char) : Bool := c.isAlphanum || c == '-' || c == '_'

/-- A character that a text may contain. -/
def isPrintable (c : Char) : Bool :=
  let n := c.toNat
  n == 9 || n == 10 || n == 13 || (0x20 ≤ n && n ≤ 0x7E) || n == 0x85 ||
    (0xA0 ≤ n && n ≤ 0xD7FF) || (0xE000 ≤ n && n ≤ 0xFFFD) || 0x10000 ≤ n

namespace Cursor

/-- The character so many places ahead. -/
def ahead (c : Cursor) (n : Nat) : Option Char := c.rest[n]?

/-- Goes over one character. -/
def next (c : Cursor) : Cursor :=
  match c.rest with
  | _ :: rest => { c with rest, index := c.index + 1, column := c.column + 1 }
  | [] => c

/-- Goes over so many characters. -/
def skip : Nat → Cursor → Cursor
  | 0, c => c
  | n + 1, c => skip n c.next

/-- Goes over one line break; answers the character that it stands for. -/
def lineBreak? (c : Cursor) : Option (Char × Cursor) :=
  match c.rest with
  | '\r' :: '\n' :: rest =>
    some ('\n', { rest, index := c.index + 2, line := c.line + 1, column := 0 })
  | b :: rest =>
    if isBreak b then
      let kept := if b.toNat == 0x2028 || b.toNat == 0x2029 then b else '\n'
      some (kept, { rest, index := c.index + 1, line := c.line + 1, column := 0 })
    else none
  | [] => none

/-- Goes over characters of one line as long as they have a property. -/
def skipWhile (p : Char → Bool) (c : Cursor) : Cursor := skip (c.rest.takeWhile p).length c

/-- Characters of one line that have a property, and the place after them. -/
def takeWhile (p : Char → Bool) (c : Cursor) : List Char × Cursor :=
  let cs := c.rest.takeWhile p
  (cs, c.skip cs.length)

/-- A line that separates documents starts here. -/
def atDocumentMark (c : Cursor) : Bool :=
  c.column == 0 &&
    ((c.rest.take 3 == ['-', '-', '-'] || c.rest.take 3 == ['.', '.', '.']) &&
      endsWord (c.ahead 3))

end Cursor

end PlaybookRunner.Yaml
