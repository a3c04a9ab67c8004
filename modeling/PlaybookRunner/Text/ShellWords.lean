/-!
# Shell words

Splitting a command line into words by the quoting rules of the shell, and
quoting a word so that splitting gives it back. Blanks, quotes, backslashes and
comments have their meaning; nothing is expanded.
-/

namespace PlaybookRunner.Text

/-- Where a scan of shell words stands. -/
inductive WordState
  /-- Between words. -/
  | between
  /-- After a backslash between words. -/
  | betweenEscape
  /-- In a word, outside quotes. -/
  | plain
  /-- After a backslash in a word. -/
  | plainEscape
  | singleQuoted
  | doubleQuoted
  /-- After a backslash inside double quotes. -/
  | doubleEscape
  | comment
deriving DecidableEq, Repr

/-- A blank that ends a shell word. -/
def isWordBlank (c : Char) : Bool := c == ' ' || c == '\t' || c == '\n'

/-- A character that a backslash escapes inside double quotes. -/
def isDoubleEscapable (c : Char) : Bool := c == '$' || c.toNat == 0x60 || c == '"' || c == '\\'

/-- The words from a state on; `word` holds the characters of the current word
in reverse. There is no answer when a quote is left open. -/
def splitWords : WordState → List Char → List Char → Option (List (List Char))
  | .between, _, [] => some []
  | .comment, _, [] => some []
  | .plain, word, [] => some [word.reverse]
  | .betweenEscape, word, [] => some [('\\' :: word).reverse]
  | .plainEscape, word, [] => some [('\\' :: word).reverse]
  | .singleQuoted, _, [] => none
  | .doubleQuoted, _, [] => none
  | .doubleEscape, _, [] => none
  | .between, word, c :: rest =>
    if c = '\'' then splitWords .singleQuoted word rest
    else if c = '"' then splitWords .doubleQuoted word rest
    else if c = '\\' then splitWords .betweenEscape word rest
    else if isWordBlank c then splitWords .between word rest
    else if c = '#' then splitWords .comment word rest
    else splitWords .plain (c :: word) rest
  | .betweenEscape, word, c :: rest =>
    if c = '\n' then splitWords .between word rest else splitWords .plain (c :: word) rest
  | .plain, word, c :: rest =>
    if c = '\'' then splitWords .singleQuoted word rest
    else if c = '"' then splitWords .doubleQuoted word rest
    else if c = '\\' then splitWords .plainEscape word rest
    else if isWordBlank c then (splitWords .between [] rest).map (word.reverse :: ·)
    else splitWords .plain (c :: word) rest
  | .plainEscape, word, c :: rest =>
    if c = '\n' then splitWords .plain word rest else splitWords .plain (c :: word) rest
  | .singleQuoted, word, c :: rest =>
    if c = '\'' then splitWords .plain word rest else splitWords .singleQuoted (c :: word) rest
  | .doubleQuoted, word, c :: rest =>
    if c = '"' then splitWords .plain word rest
    else if c = '\\' then splitWords .doubleEscape word rest
    else splitWords .doubleQuoted (c :: word) rest
  | .doubleEscape, word, c :: rest =>
    if c = '\n' then splitWords .doubleQuoted word rest
    else if isDoubleEscapable c then splitWords .doubleQuoted (c :: word) rest
    else splitWords .doubleQuoted (c :: '\\' :: word) rest
  | .comment, word, c :: rest =>
    if c = '\n' then splitWords .between word rest else splitWords .comment word rest

/-- The shell words of a text. -/
def shellWords? (cs : List Char) : Option (List (List Char)) := splitWords .between [] cs

/-- A character that makes quoting necessary. -/
def needsQuoting (c : Char) : Bool :=
  "|&;<>()$\\\"' \t\n*?[#~=%".toList.contains c || c.toNat == 0x60

/-- A single quote inside single quotes ends them, stands escaped, and opens them again. -/
def quoteInside : List Char → List Char
  | [] => []
  | c :: rest => if c = '\'' then '\'' :: '\\' :: '\'' :: '\'' :: quoteInside rest
    else c :: quoteInside rest

/-- A text between single quotes. -/
def singleQuote (cs : List Char) : List Char := '\'' :: quoteInside cs ++ ['\'']

/-- A word of a command line: quoted if it is empty or holds a special character. -/
def shellQuote (cs : List Char) : List Char :=
  if cs.isEmpty || cs.any needsQuoting then singleQuote cs else cs

/-- The command line of some words. -/
def joinShellWords (words : List String) : String :=
  " ".intercalate (words.map fun w => String.ofList (shellQuote w.toList))

end PlaybookRunner.Text
