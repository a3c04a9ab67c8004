import PlaybookRunner.Text.Blank
import PlaybookRunner.Text.Search
import PlaybookRunner.Text.ShellWords
import PlaybookRunner.Text.Word
import PlaybookRunner.Value

/-!
# Argument texts

The argument text of a task starts with words `key=value`, unquoted by the
rules of the shell; from the first other word on it is free text, kept as it is
under a key of its own.
-/

namespace PlaybookRunner.Arguments

/-- The key of the free text. -/
def rawKey : String := "_raw"

/-- The quotes around the current place of a scan. -/
inductive Quotes
  | none
  | single
  | double
deriving DecidableEq, Repr

/-- Splits the first word off a text: it ends at the first white space outside
quotes that no backslash precedes. There is no answer when a quote or a
backslash is left open. -/
def firstWord : Quotes → List Char → Option (List Char × List Char)
  | .none, [] => some ([], [])
  | _, [] => Option.none
  | quotes, c :: rest =>
    if c = '\\' ∧ quotes ≠ .single then
      match rest with
      | [] => Option.none
      | d :: rest => (firstWord quotes rest).map fun (word, after) => (c :: d :: word, after)
    else if c = '\'' ∧ quotes ≠ .double then
      (firstWord (if quotes = .single then .none else .single) rest).map fun (word, after) =>
        (c :: word, after)
    else if c = '"' ∧ quotes ≠ .single then
      (firstWord (if quotes = .double then .none else .double) rest).map fun (word, after) =>
        (c :: word, after)
    else if Text.isBlank c ∧ quotes = .none then some ([], c :: rest)
    else (firstWord quotes rest).map fun (word, after) => (c :: word, after)

/-- A key consists of letters, numbers and underscores. -/
def isKey (key : List Char) : Bool :=
  !key.isEmpty && key.all fun c => Text.isWordLike c || c == '_'

/-- What a first word turns out to be. -/
inductive FirstWord
  | pair (key : String) (value : Value)
  | free
  | unclosed

/-- Reads a word as a pair: its key is a key, and its value is what the shell
makes of the word after the first equals sign. -/
def readWord (word : List Char) : FirstWord :=
  match Text.breakChar '=' word with
  | some (key, _) =>
    if isKey key then
      match Text.shellWords? word with
      | none => .unclosed
      | some words =>
        match words.getLast?.bind (Text.breakChar '=') with
        | some (key, value) => .pair (String.ofList key) (Value.infer (String.ofList value))
        | none => .free
    else .free
  | none => .free

theorem firstWord_eq {quotes : Quotes} {cs word after : List Char}
    (h : firstWord quotes cs = some (word, after)) : cs = word ++ after := by
  fun_induction firstWord quotes cs generalizing word after <;>
    (try simp only [Option.map_eq_some_iff, Prod.exists, Prod.mk.injEq] at h) <;> grind

/-- The pairs and the free text from a place in the text on. -/
def readFrom (vars : Vars) (cs : List Char) : Option Vars :=
  let free (cs : List Char) : Vars :=
    let tail := Text.trimEnd cs
    if tail.isEmpty then vars else vars.put rawKey (.string (String.ofList tail))
  if cs.isEmpty then some vars
  else
    match _h : firstWord .none cs with
    | none => none
    | some (word, after) =>
      if _hw : word = [] then some (free cs)
      else
        match readWord word with
        | .unclosed => none
        | .free => some (free cs)
        | .pair key value => readFrom (vars.put key value) (Text.trimStart after)
termination_by cs.length
decreasing_by
  have hle := Text.length_trimStart_le after
  have hlen := congrArg List.length (firstWord_eq _h)
  have hpos := List.length_pos_iff.2 _hw
  simp at hlen
  omega

/-- The parameters that an argument text stands for; none when a quote is left open. -/
def read? (text : String) : Option Vars := readFrom [] (Text.trimStart text.toList)

/-- The wording for a quote that is left open. -/
def unclosedMessage : String := "missing closing quote"

end PlaybookRunner.Arguments
