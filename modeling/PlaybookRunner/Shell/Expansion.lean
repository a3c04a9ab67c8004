import PlaybookRunner.Shell.State

/-!
# Replacing the parts of words

Parameters, outputs of scripts and arithmetic are replaced from left to right.
How a script runs is given from outside.
-/

namespace PlaybookRunner.Shell

/-- How the shell runs a command. -/
abbrev Run := Node → Work Unit

namespace Expansion

/-- The value of a parameter, if it is set. -/
def parameter? (s : State) (name : String) : Option String :=
  match name with
  | "?" => some (toString s.status)
  | "$" => some (toString s.pid)
  | "#" => some (toString s.args.length)
  | "@" => some (" ".intercalate s.args)
  | "*" => some ((String.ofList (s.separators.take 1)).intercalate s.args)
  | "-" => some ""
  | "!" => none
  | "0" => some s.name
  | name =>
    if name.toList.all Char.isDigit then s.args[Printf.digitsValue 10 name.toList - 1]?
    else s.vars.get? name

/-- The text of some pieces. -/
def textOf (pieces : List Piece) : String := String.join (pieces.map Piece.text)

/-- The pattern of some pieces: what is not quoted is open. -/
def patternOf (pieces : List Piece) : Field :=
  pieces.flatMap fun
    | .solid text quoted => text.toList.map (·, quoted)
    | .loose text => Field.ofText text
    | .several texts => (" ".intercalate texts).toList.map (·, true)

/-- A text as a piece. -/
def piece (text : String) (quoted : Bool) : Piece := if quoted then .solid text true else .loose text

/-- A directory takes the place of a tilde at the start of a word. -/
def withHome (s : State) (word : Word) : Word :=
  match word with
  | .text text false :: rest =>
    match text.toList, s.vars.get? "HOME" with
    | '~' :: after, some home =>
      if after.isEmpty && !rest.isEmpty then word
      else if after.isEmpty || after.head? == some '/' then
        .text home true :: .text (String.ofList after) false :: rest
      else word
    | _, _ => word
  | word => word

/-- The output of a script without its final line breaks. -/
def outputText (bytes : Bytes) : String :=
  String.ofList (bytes.text.toList.reverse.dropWhile (· == '\n')).reverse

mutual

/-- The pieces of a part. -/
def ofPart (run : Run) : Part → Work (List Piece)
  | .text text quoted => return [.solid text quoted]
  | .output script quoted => do
    let before := (← get).status
    let bytes ← Work.captured (Work.inSubshell (run script))
    modify fun s => { s with answered := s.status, status := before }
    return [piece (outputText bytes) quoted]
  | .arithmetic expression quoted => do
    let text := textOf (← ofParts run expression)
    match Arithmetic.value (← get).vars text with
    | .ok (n, vars) => do
      modify fun s => { s with vars }
      return [piece (toString n) quoted]
    | .error fault => Work.abandon (fault.message text)
  | .parameter name form word quoted => do
    let s ← get
    let value := parameter? s name
    let present (alsoEmpty : Bool) : Bool :=
      match value with
      | some text => text != "" || !alsoEmpty
      | none => false
    let plain := piece (value.getD "") quoted
    if s.demanding && value.isNone && form.needsValue then
      Work.abandon (name ++ ": parameter not set")
    match form with
    | .malformed => Work.abandon "Bad substitution"
    | .plain =>
      if name == "@" && quoted then return [.several s.args] else return [plain]
    | .length => return [piece (toString (value.getD "").length) quoted]
    | .otherwise alsoEmpty => if present alsoEmpty then return [plain] else ofParts run word
    | .assigning alsoEmpty =>
      if present alsoEmpty then return [plain]
      else do
        let text := textOf (← ofParts run word)
        Work.assign "" name text
        return [piece text quoted]
    | .demanding alsoEmpty =>
      if present alsoEmpty then return [plain]
      else do
        let text := textOf (← ofParts run word)
        Work.abandon (name ++ ": " ++ (if text == "" then "parameter not set" else text))
    | .instead alsoEmpty =>
      if present alsoEmpty then ofParts run word else return [.solid "" quoted]
    | .without fromStart longest => do
      let pattern := patternOf (← ofParts run word)
      let cs := (value.getD "").toList
      let rest := if fromStart then pattern.dropStart longest cs else pattern.dropEnd longest cs
      return [piece (String.ofList rest) quoted]

/-- The pieces of a word. -/
def ofParts (run : Run) : List Part → Work (List Piece)
  | [] => return []
  | part :: rest => do
    let pieces ← ofPart run part
    return pieces ++ (← ofParts run rest)

end

/-- The words that a word becomes. -/
def words (run : Run) (word : Word) : Work (List String) := do
  let pieces ← ofParts run (withHome (← get) word)
  let s ← get
  if pieces.any Piece.isNone && pieces.all fun piece => piece.text == "" then return []
  return (Fields.ofPieces s.separators (pieces.filter fun
    | .solid text quoted => quoted || text != ""
    | _ => true)).flatMap fun field => field.words s.files s.dir

/-- The words that some words become. -/
def allWords (run : Run) (list : List Word) : Work (List String) := do
  return (← list.mapM (words run)).flatten

/-- The text that a word becomes without being split. -/
def text (run : Run) (word : Word) : Work String := do
  return textOf (← ofParts run (withHome (← get) word))

end Expansion

end PlaybookRunner.Shell
