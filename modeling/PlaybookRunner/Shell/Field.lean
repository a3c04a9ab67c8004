import PlaybookRunner.Machine.Files

/-!
# Fields of the shell

The replaced parts of words are split into fields at separators, except where
they are quoted. A field with an open pattern stands for the files it matches.
-/

namespace PlaybookRunner.Shell

/-- A part of a word after its replacement. -/
inductive Piece
  /-- A text that is not split. -/
  | solid (text : String) (quoted : Bool)
  /-- A text that is split at separators. -/
  | loose (text : String)
  /-- Texts that stay apart. -/
  | several (texts : List String)

/-- A field: its characters, and whether each was quoted. -/
abbrev Field := List (Char × Bool)

/-- The fields so far, the last one first, and the one that is being made. -/
structure Fields where
  done : List Field := []
  current : Option Field := none

namespace Fields

/-- Adds characters to the field that is being made. -/
def add (f : Fields) (cs : List Char) (quoted : Bool) : Fields :=
  { f with current := some (f.current.getD [] ++ cs.map (·, quoted)) }

/-- Ends the field that is being made, if there is one. -/
def close (f : Fields) : Fields :=
  match f.current with
  | some field => { done := field :: f.done }
  | none => f

/-- Adds a text that is split at separators. White space only ends a field that
is there; any other separator ends a field even if it is empty. -/
def addLoose (separators : List Char) (f : Fields) (cs : List Char) : Fields :=
  cs.foldl (fun f c =>
    if !separators.contains c then f.add [c] false
    else if c == ' ' || c == '\t' || c == '\n' then f.close
    else { done := f.current.getD [] :: f.done }) f

/-- Adds texts that stay apart: the first joins what is there, the last stays open. -/
def addSeveral (f : Fields) : List String → Fields
  | [] => f
  | [text] => f.add text.toList true
  | text :: rest => addSeveral (f.add text.toList true).close rest

/-- Adds a piece. -/
def addPiece (separators : List Char) (f : Fields) : Piece → Fields
  | .solid text quoted => f.add text.toList quoted
  | .loose text => f.addLoose separators text.toList
  | .several texts => f.addSeveral texts

/-- The fields of some pieces. -/
def ofPieces (separators : List Char) (pieces : List Piece) : List Field :=
  ((pieces.foldl (addPiece separators) {}).close).done.reverse

end Fields

/-- The text of a piece that is not split. -/
def Piece.text : Piece → String
  | solid text _ => text
  | loose text => text
  | several texts => " ".intercalate texts

/-- The piece stands for no field. -/
def Piece.isNone : Piece → Bool
  | several [] => true
  | _ => false

/-- The text of a field. -/
def Field.text (f : Field) : String := String.ofList (f.map Prod.fst)

/-- The field of a text in which nothing is quoted. -/
def Field.ofText (s : String) : Field := s.toList.map (·, false)

/-- A character of a set between brackets, and whether the set excludes it. -/
def inSet (set : List Char) (c : Char) : Bool :=
  match set with
  | '!' :: rest => !member rest
  | '^' :: rest => !member rest
  | rest => member rest
where
  member : List Char → Bool
    | a :: '-' :: b :: rest => (a ≤ c && c ≤ b) || member rest
    | a :: rest => a == c || member rest
    | [] => false

/-- A text matches a pattern: a star stands for any text, a question mark for
one character, and brackets for one of a set. -/
def matchesPattern : Nat → Field → List Char → Bool
  | 0, _, _ => false
  | _, [], cs => cs.isEmpty
  | fuel + 1, ('*', false) :: rest, cs =>
    matchesPattern fuel rest cs ||
      (match cs with
        | _ :: more => matchesPattern fuel (('*', false) :: rest) more
        | [] => false)
  | fuel + 1, ('?', false) :: rest, _ :: cs => matchesPattern fuel rest cs
  | fuel + 1, ('[', false) :: rest, c :: cs =>
    let set := (rest.map Prod.fst).takeWhile (· != ']')
    if set.length < rest.length then
      inSet set c && matchesPattern fuel (rest.drop (set.length + 1)) cs
    else c == '[' && matchesPattern fuel rest cs
  | fuel + 1, (p, _) :: rest, c :: cs => p == c && matchesPattern fuel rest cs
  | _, _ :: _, [] => false

/-- The whole text matches a pattern. -/
def Field.matches (pattern : Field) (cs : List Char) : Bool :=
  matchesPattern (2 * (pattern.length + cs.length) + 4) pattern cs

/-- The field has an open pattern. -/
def Field.isOpen (f : Field) : Bool :=
  f.any fun (c, quoted) => !quoted && (c == '*' || c == '?' || c == '[')

/-- The parts of a field between slashes. -/
def Field.components : Field → List Field
  | [] => [[]]
  | (c, quoted) :: rest =>
    match components rest with
    | [] => [[(c, quoted)]]
    | part :: parts => if c == '/' then [] :: part :: parts else ((c, quoted) :: part) :: parts

/-- The paths that match the parts of a pattern below a directory. -/
def matchingPaths (files : Files) (dir : Place) (before : String) : List Field → List String
  | [] => [before]
  | part :: rest =>
    let joined (name : String) : String := if rest.isEmpty then before ++ name else before ++ name ++ "/"
    if part.isOpen then
      let visible (name : String) : Bool :=
        name.toList.head? != some '.' || (part.head?.map Prod.fst) == some '.'
      ((files.names dir).filter fun name => visible name && part.matches name.toList).flatMap
        fun name => matchingPaths files (dir ++ [name]) (joined name) rest
    else
      let name := part.text
      match files.resolve dir (if name == "" then "." else name) with
      | .ok place =>
        if (files.at? place).isSome then matchingPaths files place (joined name) rest else []
      | .error _ => []

/-- The words that a field stands for: the files it matches, or its own text. -/
def Field.words (files : Files) (dir : Place) (f : Field) : List String :=
  if f.isOpen then
    let found :=
      match f with
      | ('/', _) :: rest => matchingPaths files [] "/" (Field.components rest)
      | _ => matchingPaths files dir "" f.components
    if found.isEmpty then [f.text] else found
  else [f.text]

/-- The rest of a text without the shortest or longest start that matches. -/
def Field.dropStart (pattern : Field) (longest : Bool) (cs : List Char) : List Char :=
  let ends := (List.range (cs.length + 1)).filter fun n => pattern.matches (cs.take n)
  match (if longest then ends.getLast? else ends.head?) with
  | some n => cs.drop n
  | none => cs

/-- The rest of a text without the shortest or longest end that matches. -/
def Field.dropEnd (pattern : Field) (longest : Bool) (cs : List Char) : List Char :=
  let starts := (List.range (cs.length + 1)).filter fun n => pattern.matches (cs.drop n)
  match (if longest then starts.head? else starts.getLast?) with
  | some n => cs.take n
  | none => cs

end PlaybookRunner.Shell
