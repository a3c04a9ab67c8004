import PlaybookRunner.Yaml.Scalar

/-!
# Tokens of YAML

The indentation of block collections becomes tokens of its own. Whether a
scalar is the key of a mapping shows only at the colon after it: then the
tokens for the key are inserted before the scalar.
-/

namespace PlaybookRunner.Yaml

/-- A token. -/
inductive Token
  | version (major minor : Nat)
  | tagHandle (handle start : String)
  | documentStart
  | documentEnd
  | blockSequence
  | blockMapping
  | blockEnd
  | openList
  | closeList
  | openMap
  | closeMap
  | entry
  | comma
  | key
  | value
  | alias (name : String)
  | anchor (name : String)
  | tag (handle suffix : String)
  | scalar (text : String) (isPlain : Bool)
deriving DecidableEq, Repr, Inhabited

/-- A place where a key may have started. -/
structure PossibleKey where
  /-- The number of tokens before it. -/
  position : Nat
  index : Nat
  line : Nat
  column : Nat
  /-- A colon has to follow. -/
  isRequired : Bool

/-- The state of the scanning. -/
structure Scanner where
  cursor : Cursor
  /-- The tokens so far, in reverse order, and their number. -/
  tokens : List Token := []
  count : Nat := 0
  /-- The indentation of the innermost block collection, and of those around it. -/
  indent : Int := -1
  outer : List Int := []
  /-- A key may start here. -/
  keyAllowed : Bool := true
  /-- The possible key of the block context or the innermost flow collection,
  and those of the collections around it. -/
  key : Option PossibleKey := none
  outerKeys : List (Option PossibleKey) := []

/-- A part of the scanning; it may find the text malformed. -/
abbrev Scan := StateT Scanner Option

namespace Scan

/-- The text is malformed. -/
def fail {α : Type} : Scan α := fun _ => none

/-- Appends a token. -/
def push (t : Token) : Scan Unit :=
  modify fun s => { s with tokens := t :: s.tokens, count := s.count + 1 }

/-- Inserts a token before all but the first so many. -/
def insert (position : Nat) (t : Token) : Scan Unit :=
  modify fun s =>
    let later := s.count - position
    { s with tokens := s.tokens.take later ++ t :: s.tokens.drop later, count := s.count + 1 }

/-- The scanning is inside a flow collection. -/
def inFlow : Scan Bool := return !(← get).outerKeys.isEmpty

/-- Moves the cursor. -/
def move (f : Cursor → Cursor) : Scan Unit := modify fun s => { s with cursor := f s.cursor }

/-- Drops a possible key from which the scanning is too far away. -/
def freshKey (c : Cursor) : Option PossibleKey → Option (Option PossibleKey)
  | none => some none
  | some k =>
    if k.line < c.line || k.index + 1024 < c.index then
      (if k.isRequired then none else some none)
    else some (some k)

/-- Drops the possible keys that are too far away. -/
def dropStaleKeys : Scan Unit := do
  let s ← get
  match freshKey s.cursor s.key, s.outerKeys.mapM (freshKey s.cursor) with
  | some key, some outerKeys => set { s with key, outerKeys }
  | _, _ => fail

/-- Gives up the possible key of this context. -/
def dropKey : Scan Unit := do
  let s ← get
  match s.key with
  | some k => if k.isRequired then fail else set { s with key := none }
  | none => pure ()

/-- Remembers that a key may start here. -/
def saveKey : Scan Unit := do
  let s ← get
  if s.keyAllowed then
    let isRequired := s.outerKeys.isEmpty && s.indent == (s.cursor.column : Int)
    dropKey
    let key : PossibleKey :=
      { position := s.count, index := s.cursor.index, line := s.cursor.line,
        column := s.cursor.column, isRequired }
    modify fun s => { s with key := some key }

/-- Allows or forbids that a key starts. -/
def allowKey (allowed : Bool) : Scan Unit := modify fun s => { s with keyAllowed := allowed }

/-- Opens a block collection at a column, unless one is open there. -/
def roll (column : Nat) (position : Option Nat) (t : Token) : Scan Unit := do
  let s ← get
  if s.outerKeys.isEmpty && s.indent < (column : Int) then
    set { s with outer := s.indent :: s.outer, indent := column }
    match position with
    | some n => insert n t
    | none => push t

/-- Closes the block collections that stand further to the right than a column. -/
def unroll (column : Int) : Scan Unit := do
  let s ← get
  if s.outerKeys.isEmpty then close s.outer.length
where
  close : Nat → Scan Unit
    | 0 => return ()
    | n + 1 => do
      let s ← get
      if column < s.indent then
        push .blockEnd
        match s.outer with
        | indent :: outer => modify fun s => { s with indent, outer }
        | [] => modify fun s => { s with indent := -1 }
        close n

/-- Goes to the next token over blanks, comments and line breaks. -/
def skipSpace : Nat → Scan Unit
  | 0 => fail
  | fuel + 1 => do
    let s ← get
    let c := s.cursor
    let c := if c.column == 0 && (c.ahead 0).map Char.toNat == some 0xFEFF then c.next else c
    let tabs := !s.outerKeys.isEmpty || !s.keyAllowed
    let c := c.skipWhile fun a => a == ' ' || (tabs && a == '\t')
    let c := if c.ahead 0 == some '#' then c.skipWhile fun a => !isBreak a else c
    match c.lineBreak? with
    | some (_, after) => do
      set { s with cursor := after, keyAllowed := s.keyAllowed || s.outerKeys.isEmpty }
      skipSpace fuel
    | none => set { s with cursor := c }

/-- Reads an indicator of one character. -/
def mark (t : Token) : Scan Unit := do
  move Cursor.next
  push t

/-- Opens a flow collection. -/
def openFlow (t : Token) : Scan Unit := do
  saveKey
  modify fun s => { s with outerKeys := s.key :: s.outerKeys, key := none }
  allowKey true
  mark t

/-- Closes a flow collection. -/
def closeFlow (t : Token) : Scan Unit := do
  dropKey
  modify fun s =>
    match s.outerKeys with
    | key :: outerKeys => { s with key, outerKeys }
    | [] => { s with key := none }
  allowKey false
  mark t

/-- Reads the comma between the parts of a flow collection. -/
def comma : Scan Unit := do
  dropKey
  allowKey true
  mark .comma

/-- Reads the mark of an entry of a block sequence. -/
def entry : Scan Unit := do
  if !(← inFlow) then
    if !(← get).keyAllowed then fail
    roll (← get).cursor.column none .blockSequence
  dropKey
  allowKey true
  mark .entry

/-- Reads the mark of a key. -/
def keyMark : Scan Unit := do
  let flow ← inFlow
  if !flow then
    if !(← get).keyAllowed then fail
    roll (← get).cursor.column none .blockMapping
  dropKey
  allowKey (!flow)
  mark .key

/-- Reads the mark of a value; what stands before it may turn out to be a key. -/
def valueMark : Scan Unit := do
  match (← get).key with
  | some k => do
    insert k.position .key
    roll k.column (some k.position) .blockMapping
    modify fun s => { s with key := none }
    allowKey false
  | none => do
    let flow ← inFlow
    if !flow then
      if !(← get).keyAllowed then fail
      roll (← get).cursor.column none .blockMapping
    allowKey (!flow)
  mark .value

/-- Characters that may follow the name of an anchor without a blank. -/
def endsName (c : Option Char) : Bool :=
  endsWord c || (c.map fun a => "?:,]\x7d%@".toList.contains a || a.toNat == 0x60).getD false

/-- Reads an anchor or an alias. -/
def name (make : String → Token) : Scan Unit := do
  saveKey
  allowKey false
  let (word, after) := (← get).cursor.next.takeWhile isWord
  if word.isEmpty || !endsName (after.ahead 0) then fail
  move fun _ => after
  push (make (String.ofList word))

/-- A character of a tag. -/
def isTagChar (inBrackets : Bool) (c : Char) : Bool :=
  isWord c || ";/?:@&=+$.!~*'()%".toList.contains c || (inBrackets && ",[]".toList.contains c)

/-- Reads the escape of one byte. -/
def byteEscape? : List Char → Option (Nat × List Char)
  | '%' :: a :: b :: rest => do
    return ((← hexDigit? a) * 16 + (← hexDigit? b), rest)
  | _ => none

/-- The bytes that follow a first byte of so many. -/
def continuation : Nat → Nat → List Char → Option (Nat × List Char)
  | 0, n, rest => some (n, rest)
  | count + 1, n, rest => do
    let (b, rest) ← byteEscape? rest
    if 0x80 ≤ b && b < 0xC0 then continuation count (n * 64 + (b - 0x80)) rest else none

/-- Replaces the escapes of a tag. -/
def tagText : Nat → List Char → Option (List Char)
  | _, [] => some []
  | 0, _ :: _ => none
  | fuel + 1, '%' :: rest => do
    let (b, rest) ← byteEscape? ('%' :: rest)
    let (n, rest) ←
      if b < 0x80 then some (b, rest)
      else if 0xC0 ≤ b && b < 0xE0 then continuation 1 (b - 0xC0) rest
      else if 0xE0 ≤ b && b < 0xF0 then continuation 2 (b - 0xE0) rest
      else if 0xF0 ≤ b && b < 0xF8 then continuation 3 (b - 0xF0) rest
      else none
    return Char.ofNat n :: (← tagText fuel rest)
  | fuel + 1, c :: rest => do return c :: (← tagText fuel rest)

/-- Reads the characters of a tag. -/
def tagChars (inBrackets : Bool) (c : Cursor) : Option (List Char × Cursor) := do
  let (cs, after) := c.takeWhile (isTagChar inBrackets)
  return (← tagText cs.length cs, after)

/-- Reads a handle of tags: a word between exclamation marks, of which the last
may be missing. -/
def tagHandle (c : Cursor) : Option (List Char × Cursor) :=
  match c.rest with
  | '!' :: _ =>
    let (word, after) := c.next.takeWhile isWord
    if after.ahead 0 == some '!' then some ('!' :: word ++ ['!'], after.next)
    else some ('!' :: word, after)
  | _ => none

/-- Reads a tag: a full one in angle brackets, or a handle and a suffix. -/
def tagToken (c : Cursor) : Option (Token × Cursor) :=
  if c.ahead 1 == some '<' then do
    let (cs, after) ← tagChars true (c.skip 2)
    if cs.isEmpty || after.ahead 0 != some '>' then none
    else some (.tag "" (String.ofList cs), after.next)
  else do
    let (handle, after) ← tagHandle c
    if handle.length > 1 && handle.getLast? == some '!' then
      let (suffix, after) ← tagChars false after
      if suffix.isEmpty then none
      else some (.tag (String.ofList handle) (String.ofList suffix), after)
    else
      let (rest, after) ← tagChars false after
      let suffix := handle.drop 1 ++ rest
      if suffix.isEmpty then some (.tag "" "!", after)
      else some (.tag "!" (String.ofList suffix), after)

/-- Reads a tag and what has to follow it. -/
def tag : Scan Unit := do
  saveKey
  allowKey false
  match tagToken (← get).cursor with
  | none => fail
  | some (t, after) => do
    if !((← inFlow) && after.ahead 0 == some ',') && !endsWord (after.ahead 0) then fail
    move fun _ => after
    push t

/-- Reads a scalar on which a key may start. -/
def scalar (isPlain : Bool) (read : Cursor → Option (List Char × Cursor)) : Scan Unit := do
  saveKey
  allowKey false
  match read (← get).cursor with
  | none => fail
  | some (cs, after) => do
    move fun _ => after
    push (.scalar (String.ofList cs) isPlain)

/-- Reads a plain scalar; after a line break a key may start again. -/
def plain : Scan Unit := do
  saveKey
  allowKey false
  let s ← get
  let c := s.cursor
  match plainText (← inFlow) (s.indent + 1).toNat (c.rest.length + 1) true c {} with
  | none => fail
  | some (f, after) => do
    move fun _ => after
    push (.scalar (String.ofList f.chars) true)
    if f.broken then allowKey true

/-- Reads a block scalar. -/
def block (literal : Bool) : Scan Unit := do
  dropKey
  allowKey true
  let s ← get
  match blockText literal s.indent s.cursor.next with
  | none => fail
  | some (cs, after) => do
    move fun _ => after
    push (.scalar (String.ofList cs) false)

/-- Reads a number of a version. -/
def versionNumber (c : Cursor) : Option (Nat × Cursor) :=
  let (digits, after) := c.takeWhile Char.isDigit
  if digits.isEmpty || digits.length > 9 then none
  else some (digits.foldl (fun n d => n * 10 + (d.toNat - 48)) 0, after)

/-- Reads the version that a directive gives. -/
def versionToken (c : Cursor) : Option (Token × Cursor) := do
  let (major, c) ← versionNumber (c.skipWhile isBlank)
  if c.ahead 0 != some '.' then none
  else do
    let (minor, c) ← versionNumber c.next
    return (.version major minor, c)

/-- Reads the handle that a directive defines. -/
def handleToken (c : Cursor) : Option (Token × Cursor) := do
  let (handle, c) ← tagHandle (c.skipWhile isBlank)
  if handle.length > 1 && handle.getLast? != some '!' then none
  else if !((c.ahead 0).map isBlank).getD false then none
  else do
    let (start, c) ← tagChars true (c.skipWhile isBlank)
    if start.isEmpty || !endsWord (c.ahead 0) then none
    else some (.tagHandle (String.ofList handle) (String.ofList start), c)

/-- Reads a directive and the rest of its line. -/
def directive : Scan Unit := do
  unroll (-1)
  dropKey
  allowKey false
  let (word, c) := (← get).cursor.next.takeWhile isWord
  if !endsWord (c.ahead 0) then fail
  let found :=
    match String.ofList word with
    | "YAML" => versionToken c
    | "TAG" => handleToken c
    | _ => none
  match found with
  | none => fail
  | some (t, c) => do
    let c := c.skipWhile isBlank
    let c := if c.ahead 0 == some '#' then c.skipWhile fun a => !isBreak a else c
    push t
    match c.lineBreak? with
    | some (_, after) => move fun _ => after
    | none => if c.rest.isEmpty then move fun _ => c else fail

/-- Reads a line that separates documents. -/
def documentMark (t : Token) : Scan Unit := do
  unroll (-1)
  dropKey
  allowKey false
  move (Cursor.skip 3)
  push t

/-- A plain scalar can start with this character. -/
def startsPlain (flow : Bool) (c : Cursor) (a : Char) : Bool :=
  if a == '-' then !((c.ahead 1).map isBlank).getD false
  else if a == '?' || a == ':' then !flow && !endsWord (c.ahead 1)
  else !(isBlank a || "-?:,[]{}#&*!|>'\"%@".toList.contains a || a.toNat == 0x60)

/-- Reads the token that starts with a character. -/
def token (flow : Bool) (c : Cursor) (a : Char) : Scan Unit :=
  let ends := endsWord (c.ahead 1)
  if c.column == 0 && a == '%' then directive
  else if c.atDocumentMark then
    documentMark (if a == '-' then .documentStart else .documentEnd)
  else if a == '[' then openFlow .openList
  else if a == '{' then openFlow .openMap
  else if a == ']' then closeFlow .closeList
  else if a == '}' then closeFlow .closeMap
  else if a == ',' then comma
  else if a == '-' && ends then entry
  else if a == '?' && (flow || ends) then keyMark
  else if a == ':' && (flow || ends) then valueMark
  else if a == '*' then name .alias
  else if a == '&' then name .anchor
  else if a == '!' then tag
  else if a == '|' && !flow then block true
  else if a == '>' && !flow then block false
  else if a == '\'' then
    scalar false fun c => singleQuoted (c.rest.length + 1) true c.next {}
  else if a == '"' then
    scalar false fun c => doubleQuoted (c.rest.length + 1) true c.next {}
  else if startsPlain flow c a then plain
  else fail

/-- Reads all tokens. -/
def all : Nat → Scan Unit
  | 0 => fail
  | fuel + 1 => do
    skipSpace ((← get).cursor.rest.length + 1)
    dropStaleKeys
    let c := (← get).cursor
    unroll c.column
    match c.rest with
    | [] => do
      if c.column != 0 then
        move fun c => { c with column := 0, line := c.line + 1 }
      unroll (-1)
      dropKey
    | a :: _ => do
      token (← inFlow) c a
      all fuel

end Scan

/-- The tokens of a text, unless it is malformed. -/
def Token.ofText? (text : String) : Option (List Token) :=
  let cs := text.toList
  if cs.all isPrintable then
    ((Scan.all (cs.length + 2)).run { cursor := { rest := cs } }).map fun (_, s) => s.tokens.reverse
  else none

end PlaybookRunner.Yaml
