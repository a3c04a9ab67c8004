import PlaybookRunner.Decimal.Reader
import PlaybookRunner.Text.Blank
import PlaybookRunner.Text.Search
import PlaybookRunner.Text.Word

/-!
# Tokens of expressions and templates

An expression is scanned as a whole. A template is literal text with regions
`\x7b\x7b … \x7d\x7d`; each region is scanned as an expression between an
opening and a closing token. Offsets count the bytes of the text.
-/

namespace PlaybookRunner

/-- A lexical token. -/
inductive Token
  | openParen
  | closeParen
  | openBracket
  | closeBracket
  | int (value : Int64)
  | float (value : Float)
  | string (text : String)
  | symbol (name : String)
  /-- Text outside any region. -/
  | literal (text : String)
  /-- Start of a region. -/
  | openRegion
  /-- End of a region. -/
  | closeRegion

/-- A token and the byte offset at which it was found. -/
structure Located where
  token : Token
  offset : Nat

/-- Why a text cannot be scanned. -/
inductive SyntaxError
  | unterminated (offset : Nat)
  | unbalanced (offset : Nat)
  | nested (offset : Nat)
  | empty (offset : Nat)
  | unterminatedString (offset : Nat)
  | unexpectedChar (char : Char) (offset : Nat)
deriving DecidableEq, Repr

/-- The wording of a scanning error. -/
def SyntaxError.message : SyntaxError → String
  | unterminated offset => s!"unterminated expression starting at offset {offset}"
  | unbalanced offset => s!"unbalanced '\x7d\x7d' at offset {offset}"
  | nested offset => s!"nested '\x7b\x7b' at offset {offset}"
  | empty offset => s!"empty expression at offset {offset}"
  | unterminatedString offset => s!"unterminated string literal starting at offset {offset}"
  | unexpectedChar char offset => s!"unexpected character '{char}' at offset {offset}"

/-- How a list of tokens is to be read. -/
inductive Mode
  | expression
  | template
deriving DecidableEq, Repr

/-- A scanned text. -/
structure TokenStream where
  mode : Mode
  tokens : List Located

namespace Token

/-- A character that may stand in a word. -/
def isWordChar (c : Char) : Bool := Text.isWordLike c || "_.-+*/%=!<>?$&|:".toList.contains c

/-- A word that starts like a number: with a digit, or a sign and a digit. -/
def startsNumber : List Char → Bool
  | '-' :: c :: _ => c.isDigit
  | '+' :: c :: _ => c.isDigit
  | c :: _ => c.isDigit
  | [] => false

/-- The token of a word: a number if it starts like one and reads as one, else a symbol. -/
def ofWord (word : List Char) : Token :=
  let s := String.ofList word
  if startsNumber word then
    match Decimal.word? s, Decimal.float? s with
    | some n, _ => int n
    | none, some x => float x
    | none, none => symbol s
  else symbol s

/-- The character that one after a backslash stands for: a line break for `n`, a
tab for `t`, else itself. -/
def unescape (c : Char) : Char := if c = 'n' then '\n' else if c = 't' then '\t' else c

/-- The rest of a string after its opening quote: its text, the characters read
up to and including the closing quote, and what follows. -/
def scanString (quote : Char) : List Char → Option (List Char × List Char × List Char)
  | [] => none
  | '\\' :: [] => none
  | '\\' :: c :: rest =>
    (scanString quote rest).map fun (text, raw, after) =>
      (unescape c :: text, '\\' :: c :: raw, after)
  | c :: rest =>
    if c = quote then some ([], [c], rest)
    else (scanString quote rest).map fun (text, raw, after) => (c :: text, c :: raw, after)

theorem scanString_eq {quote : Char} {cs text raw after : List Char}
    (h : scanString quote cs = some (text, raw, after)) : cs = raw ++ after := by
  fun_induction scanString quote cs generalizing text raw with
  | case1 => simp at h
  | case2 => simp at h
  | case3 c rest ih =>
    obtain ⟨⟨t, r, a⟩, hs, he⟩ := Option.map_eq_some_iff.1 h
    simp only [Prod.mk.injEq] at he
    obtain ⟨_, rfl, rfl⟩ := he
    simp [ih hs]
  | case4 =>
    simp only [Option.some.injEq, Prod.mk.injEq] at h
    obtain ⟨_, rfl, rfl⟩ := h
    simp
  | case5 c rest _ _ _ ih =>
    obtain ⟨⟨t, r, a⟩, hs, he⟩ := Option.map_eq_some_iff.1 h
    simp only [Prod.mk.injEq] at he
    obtain ⟨_, rfl, rfl⟩ := he
    simp [ih hs]

/-- The bracket a character stands for. -/
def bracket? (c : Char) : Option Token :=
  if c = '(' then some openParen
  else if c = ')' then some closeParen
  else if c = '[' then some openBracket
  else if c = ']' then some closeBracket
  else none

/-- Scans an expression whose first character stands at `offset`. -/
def scan (offset : Nat) : List Char → Except SyntaxError (List Located)
  | [] => .ok []
  | c :: rest =>
    match bracket? c with
    | some token => (scan (offset + c.utf8Size) rest).map (⟨token, offset⟩ :: ·)
    | none =>
      if Text.isBlank c then scan (offset + c.utf8Size) rest
      else if c = '"' ∨ c = '\'' then
        match _h : scanString c rest with
        | none => .error (.unterminatedString offset)
        | some (text, raw, after) =>
          (scan (offset + c.utf8Size + Text.byteSize raw) after).map
            (⟨string (String.ofList text), offset⟩ :: ·)
      else if isWordChar c then
        let word := c :: rest.takeWhile isWordChar
        (scan (offset + Text.byteSize word) (rest.dropWhile isWordChar)).map
          (⟨ofWord word, offset⟩ :: ·)
      else .error (.unexpectedChar c offset)
termination_by cs => cs.length
decreasing_by
  all_goals simp_wf
  · have := congrArg List.length (scanString_eq _h)
    simp at this
    omega
  · have := (List.dropWhile_suffix isWordChar (l := rest)).length_le
    omega

/-- A literal token, unless the text is empty. -/
def literal? (text : List Char) (offset : Nat) : List Located :=
  if text.isEmpty then [] else [⟨literal (String.ofList text), offset⟩]

/-- Scans a template whose first character stands at `offset`. -/
def scanTemplate (offset : Nat) (cs : List Char) : Except SyntaxError (List Located) :=
  match _h : Text.breakPair '{' cs, Text.breakPair '}' cs with
  | none, some (before, _) => .error (.unbalanced (offset + Text.byteSize before))
  | none, none => .ok (literal? cs offset)
  | some (before, after), close =>
    let opening := offset + Text.byteSize before
    match close.filter fun (early, _) => early.length < before.length with
    | some (early, _) => .error (.unbalanced (offset + Text.byteSize early))
    | none =>
      match _h' : Text.breakPair '}' after with
      | none => .error (.unterminated opening)
      | some (inner, rest) =>
        let start := opening + 2
        match Text.breakPair '{' inner with
        | some (clean, _) => .error (.nested (start + Text.byteSize clean))
        | none =>
          if Text.allBlank inner then .error (.empty opening)
          else do
            let region ← scan start inner
            let closing := start + Text.byteSize inner
            let more ← scanTemplate (closing + 2) rest
            return literal? before offset ++ ⟨openRegion, opening⟩ :: region ++
              ⟨closeRegion, closing⟩ :: more
termination_by cs.length
decreasing_by
  have := Text.length_lt_of_breakPair _h
  have := Text.length_lt_of_breakPair _h'
  omega

end Token

namespace TokenStream

/-- The text holds a delimiter of regions. -/
def isTemplate (cs : List Char) : Bool :=
  (Text.breakPair '{' cs).isSome || (Text.breakPair '}' cs).isSome

/-- Scans a text as a template, whether or not it has regions. -/
def ofTemplate (text : String) : Except SyntaxError TokenStream :=
  (Token.scanTemplate 0 text.toList).map (⟨.template, ·⟩)

/-- Scans a text as one expression. -/
def ofExpression (text : String) : Except SyntaxError TokenStream :=
  (Token.scan 0 text.toList).map (⟨.expression, ·⟩)

/-- Scans a text as a template if it holds a delimiter, else as one expression. -/
def ofText (text : String) : Except SyntaxError TokenStream :=
  if isTemplate text.toList then ofTemplate text else ofExpression text

end TokenStream

end PlaybookRunner
