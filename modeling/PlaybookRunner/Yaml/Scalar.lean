import PlaybookRunner.Yaml.Cursor

/-!
# The texts of scalars

Plain and quoted texts may run over several lines, which are folded: a single
line break becomes a space, and further ones are kept. The lines of a block
are kept, or folded where neither neighbour starts with a blank.
-/

namespace PlaybookRunner.Yaml

/-- A text that is being folded. Lists are in reverse order. -/
structure Folding where
  text : List Char := []
  /-- Blanks that count if a character of the same line follows. -/
  blanks : List Char := []
  /-- The first line break after the text. -/
  first : Option Char := none
  /-- The line breaks after the first one. -/
  more : List Char := []
  /-- A line has ended since the last character. -/
  broken : Bool := false

namespace Folding

/-- Settles the blanks and line breaks before a further character. -/
def join (f : Folding) : Folding :=
  if f.broken then
    let between :=
      match f.first with
      | some '\n' => if f.more.isEmpty then [' '] else f.more
      | some c => f.more ++ [c]
      | none => f.more
    { text := between ++ f.text }
  else { text := f.blanks ++ f.text }

/-- Adds a character. -/
def add (f : Folding) (c : Char) : Folding := { f with text := c :: f.text }

/-- Adds a blank of the same line. -/
def addBlank (f : Folding) (c : Char) : Folding :=
  if f.broken then f else { f with blanks := c :: f.blanks }

/-- Adds a line break. -/
def addBreak (f : Folding) (c : Char) : Folding :=
  if f.broken then { f with more := c :: f.more }
  else { f with blanks := [], first := some c, broken := true }

/-- The text so far. -/
def chars (f : Folding) : List Char := f.text.reverse

end Folding

/-- Goes over blanks and line breaks. A tab may not stand in the indentation,
whose width is given if it matters. -/
def blankRun (indent : Option Nat) : Nat → Cursor → Folding → Option (Folding × Cursor)
  | 0, _, _ => none
  | fuel + 1, c, f =>
    match c.rest with
    | [] => some (f, c)
    | a :: _ =>
      if isBlank a then
        if f.broken && a == '\t' && (indent.map fun n => decide (c.column < n)).getD false then none
        else blankRun indent fuel c.next (f.addBlank a)
      else
        match c.lineBreak? with
        | some (kept, after) => blankRun indent fuel after (f.addBreak kept)
        | none => some (f, c)

/-- A character that delimits flow collections. -/
def isFlowMark (c : Char) : Bool := ",[]{}".toList.contains c

/-- A colon that may not stand inside a plain text of a flow collection. -/
def isBadColon (inFlow : Bool) (c : Cursor) : Bool :=
  inFlow && c.ahead 0 == some ':' &&
    ((c.ahead 1).map fun d => ",?[]{}".toList.contains d).getD false

/-- A plain text ends before this character. -/
def endsPlain (inFlow : Bool) (c : Cursor) (a : Char) : Bool :=
  (a == ':' && endsWord (c.ahead 1)) || (inFlow && isFlowMark a)

/-- Reads a plain text. `fresh` holds at its start and after blanks. -/
def plainText (inFlow : Bool) (indent : Nat) :
    Nat → Bool → Cursor → Folding → Option (Folding × Cursor)
  | 0, _, _, _ => none
  | fuel + 1, fresh, c, f =>
    match c.rest with
    | [] => some (f, c)
    | a :: _ =>
      if fresh && (c.atDocumentMark || a == '#') then some (f, c)
      else if isBlank a || isBreak a then
        match blankRun (some indent) (c.rest.length + 1) c f with
        | none => none
        | some (f, after) =>
          if !inFlow && after.column < indent then some (f, after)
          else plainText inFlow indent fuel true after f
      else if isBadColon inFlow c then none
      else if endsPlain inFlow c a then some (f, c)
      else plainText inFlow indent fuel false c.next (f.join.add a)

/-- The text between single quotes, from after the first one. -/
def singleQuoted : Nat → Bool → Cursor → Folding → Option (List Char × Cursor)
  | 0, _, _, _ => none
  | fuel + 1, fresh, c, f =>
    if fresh && c.atDocumentMark then none
    else
      match c.rest with
      | [] => none
      | '\'' :: '\'' :: _ => singleQuoted fuel false (c.skip 2) (f.add '\'')
      | '\'' :: _ => some (f.chars, c.next)
      | a :: _ =>
        if isBlank a || isBreak a then
          match blankRun none (c.rest.length + 1) c f with
          | none => none
          | some (f, after) => singleQuoted fuel true after f.join
        else singleQuoted fuel false c.next (f.add a)

/-- The value of a hexadecimal digit. -/
def hexDigit? (c : Char) : Option Nat :=
  if c.isDigit then some (c.toNat - 48)
  else if 'a' ≤ c && c ≤ 'f' then some (c.toNat - 87)
  else if 'A' ≤ c && c ≤ 'F' then some (c.toNat - 55)
  else none

/-- The character that so many hexadecimal digits stand for. -/
def hexChar? (cs : List Char) (count : Nat) : Option Char := do
  let digits ← (cs.take count).mapM hexDigit?
  let n := digits.foldl (fun n d => n * 16 + d) 0
  if digits.length == count && (n < 0xD800 || (0xDFFF < n && n ≤ 0x10FFFF)) then
    some (Char.ofNat n)
  else none

/-- What a character after a backslash stands for: a character, or so many
hexadecimal digits. -/
def escape? (c : Char) : Option (Char ⊕ Nat) :=
  match c with
  | '0' => some (.inl (Char.ofNat 0))
  | 'a' => some (.inl (Char.ofNat 7))
  | 'b' => some (.inl (Char.ofNat 8))
  | 't' => some (.inl '\t')
  | '\t' => some (.inl '\t')
  | 'n' => some (.inl '\n')
  | 'v' => some (.inl (Char.ofNat 11))
  | 'f' => some (.inl (Char.ofNat 12))
  | 'r' => some (.inl '\r')
  | 'e' => some (.inl (Char.ofNat 27))
  | ' ' => some (.inl ' ')
  | '"' => some (.inl '"')
  | '/' => some (.inl '/')
  | '\\' => some (.inl '\\')
  | 'N' => some (.inl (Char.ofNat 0x85))
  | '_' => some (.inl (Char.ofNat 0xA0))
  | 'L' => some (.inl (Char.ofNat 0x2028))
  | 'P' => some (.inl (Char.ofNat 0x2029))
  | 'x' => some (.inr 2)
  | 'u' => some (.inr 4)
  | 'U' => some (.inr 8)
  | _ => none

/-- The text between double quotes, from after the first one. -/
def doubleQuoted : Nat → Bool → Cursor → Folding → Option (List Char × Cursor)
  | 0, _, _, _ => none
  | fuel + 1, fresh, c, f =>
    if fresh && c.atDocumentMark then none
    else
      match c.rest with
      | [] => none
      | '"' :: _ => some (f.chars, c.next)
      | '\\' :: rest =>
        match c.next.lineBreak? with
        | some (_, after) =>
          match blankRun none (rest.length + 1) after { f with broken := true } with
          | none => none
          | some (f, after) => doubleQuoted fuel true after f.join
        | none =>
          match rest with
          | [] => none
          | d :: digits =>
            match escape? d with
            | none => none
            | some (.inl a) => doubleQuoted fuel false (c.skip 2) (f.add a)
            | some (.inr count) =>
              match hexChar? digits count with
              | some a => doubleQuoted fuel false (c.skip (2 + count)) (f.add a)
              | none => none
      | a :: _ =>
        if isBlank a || isBreak a then
          match blankRun none (c.rest.length + 1) c f with
          | none => none
          | some (f, after) => doubleQuoted fuel true after f.join
        else doubleQuoted fuel false c.next (f.add a)

/-! ## Blocks -/

/-- What becomes of the line breaks at the end of a block. -/
inductive Chomping
  | strip
  | clip
  | keep
deriving DecidableEq, Repr

/-- The header of a block: its chomping and, if given, its indentation. -/
structure BlockHeader where
  chomping : Chomping := .clip
  increment : Option Nat := none

/-- Reads a sign of chomping. -/
def chomping? : Option Char → Option Chomping
  | some '+' => some .keep
  | some '-' => some .strip
  | _ => none

/-- Reads a digit of indentation; zero is not one. -/
def increment? : Option Char → Option (Option Nat)
  | some c => if c == '0' then none else if c.isDigit then some (some (c.toNat - 48)) else some none
  | none => some none

/-- Reads the header of a block after its first character, with the rest of the line. -/
def blockHeader (c : Cursor) : Option (BlockHeader × Cursor) := do
  let (header, c) ←
    match chomping? (c.ahead 0) with
    | some chomping => do
      let increment ← increment? (c.ahead 1)
      pure ({ chomping, increment : BlockHeader }, c.skip (if increment.isSome then 2 else 1))
    | none => do
      let increment ← increment? (c.ahead 0)
      if increment.isNone then pure (({} : BlockHeader), c)
      else
        match chomping? (c.ahead 1) with
        | some chomping => pure ({ chomping, increment }, c.skip 2)
        | none => pure ({ increment }, c.next)
  let c := c.skipWhile isBlank
  let c := if c.ahead 0 == some '#' then c.skipWhile fun a => !isBreak a else c
  match c.rest with
  | [] => some (header, c)
  | _ :: _ => c.lineBreak?.map fun (_, after) => (header, after)

/-- The line breaks before the next line of a block with text, in reverse order;
`indent` is zero as long as it is not known. -/
def blockBreaks (indent : Nat) : Nat → Nat → Cursor → List Char → Option (Nat × List Char × Cursor)
  | 0, _, _, _ => none
  | fuel + 1, widest, c, breaks =>
    let free (column : Nat) : Bool := indent == 0 || column < indent
    match c.rest with
    | ' ' :: _ =>
      if free c.column then blockBreaks indent fuel (max widest (c.column + 1)) c.next breaks
      else some (widest, breaks, c)
    | '\t' :: _ => if free c.column then none else some (max widest c.column, breaks, c)
    | _ =>
      match c.lineBreak? with
      | some (kept, after) => blockBreaks indent fuel (max widest c.column) after (kept :: breaks)
      | none => some (max widest c.column, breaks, c)

/-- A block that is being read. Lists are in reverse order. -/
structure BlockText where
  text : List Char := []
  /-- The line break after the last line with text. -/
  leading : Option Char := none
  /-- The line breaks after that one. -/
  trailing : List Char := []
  /-- The last line with text started with a blank. -/
  startedBlank : Bool := false

/-- Settles the line breaks before a line that starts with a blank or not. -/
def BlockText.join (b : BlockText) (literal startsBlank : Bool) : BlockText :=
  let folds := !literal && b.leading == some '\n' && !b.startedBlank && !startsBlank
  let lead := if folds then (if b.trailing.isEmpty then [' '] else []) else b.leading.toList
  { text := b.trailing ++ (lead ++ b.text) }

/-- Reads the lines of a block. -/
def blockLines (literal : Bool) (indent : Nat) :
    Nat → Cursor → BlockText → Option (BlockText × Cursor)
  | 0, _, _ => none
  | fuel + 1, c, b =>
    if c.column != indent || c.rest.isEmpty then some (b, c)
    else
      let startsBlank := (c.rest.head?.map isBlank).getD false
      let b := b.join literal startsBlank
      let (line, c) := c.takeWhile fun a => !isBreak a
      let (leading, c) :=
        match c.lineBreak? with
        | some (kept, after) => (some kept, after)
        | none => (none, c)
      match blockBreaks indent (c.rest.length + 1) 0 c [] with
      | none => none
      | some (_, trailing, c) =>
        blockLines literal indent fuel c
          { text := line.reverse ++ b.text, leading, trailing, startedBlank := startsBlank }

/-- Reads a block after its first character; `parent` is the indentation of the
collection around it, negative outside all collections. -/
def blockText (literal : Bool) (parent : Int) (c : Cursor) : Option (List Char × Cursor) := do
  let (header, c) ← blockHeader c
  let given : Nat :=
    match header.increment with
    | some n => (if 0 ≤ parent then parent + n else n).toNat
    | none => 0
  let (widest, trailing, c) ← blockBreaks given (c.rest.length + 1) 0 c []
  let indent := if given == 0 then max (max widest (parent + 1).toNat) 1 else given
  let (b, c) ← blockLines literal indent (c.rest.length + 1) c { trailing }
  let text :=
    match header.chomping with
    | .strip => b.text
    | .clip => b.leading.toList ++ b.text
    | .keep => b.trailing ++ (b.leading.toList ++ b.text)
  return (text.reverse, c)

end PlaybookRunner.Yaml
