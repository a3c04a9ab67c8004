import PlaybookRunner.Shell.Syntax

/-!
# Reading shell scripts

A script is read from left to right with bounded depth; the bound exceeds what
a text of its length can need. A document follows the line that announces it.
-/

namespace PlaybookRunner.Shell

/-- A document that a line has announced. -/
structure Announced where
  delimiter : List Char
  /-- Parameters in the document are replaced. -/
  expands : Bool
  /-- Tabs at the start of its lines are dropped. -/
  dropsTabs : Bool

/-- What is left of a script while it is read. -/
structure Source where
  rest : List Char
  line : Nat := 1
  announced : List Announced := []
  documents : List Word := []

/-- Announces a document. -/
def Source.announce (s : Source) (document : Announced) : Source :=
  { s with announced := s.announced ++ [document] }

/-- A part of the reading; it may find the script malformed. -/
abbrev Reading := StateT Source (Except Malformed)

namespace Reading

/-- Gives up on the script. -/
def refuse {α : Type} (message : String) : Reading α := do
  throw { line := (← get).line, message := "Syntax error: " ++ message }

/-- Counts line breaks that were read inside a word. -/
def countLines (cs : List Char) : Reading Unit :=
  modify fun s => { s with line := s.line + cs.count '\n' }

/-- The characters that are left. -/
def rest : Reading (List Char) := return (← get).rest

/-- Sets what is left. -/
def setRest (cs : List Char) : Reading Unit := modify fun s => { s with rest := cs }

/-- A character that ends a word. -/
def endsWord (c : Char) : Bool := " \t\n;&|<>()".toList.contains c

/-- A character that can start a name. -/
def startsName (c : Char) : Bool := c.isAlpha || c == '_'

/-- A character that can stand in a name. -/
def inName (c : Char) : Bool := c.isAlphanum || c == '_'

/-- The text is a name. -/
def isName (cs : List Char) : Bool :=
  match cs with
  | c :: rest => startsName c && rest.all inName
  | [] => false

/-- Drops spaces, joined lines and comments. -/
def blanksDropped : List Char → List Char
  | '\\' :: '\n' :: rest => blanksDropped rest
  | c :: rest =>
    if c == ' ' || c == '\t' then blanksDropped rest
    else if c == '#' then rest.dropWhile (· != '\n')
    else c :: rest
  | [] => []

/-- Goes to the next token. -/
def skipBlanks : Reading Unit := do
  let cs ← rest
  let after := blanksDropped cs
  countLines (cs.take (cs.length - after.length))
  setRest after

/-- The word without quotes that comes next, if it ends there. -/
def bareWord (cs : List Char) : String :=
  String.ofList (cs.takeWhile fun c => !endsWord c)

/-- Words that end a list of commands. -/
def closers : List String := ["then", "do", "done", "fi", "else", "elif", "esac", "\x7d"]

/-- Words with a meaning of their own where a command starts. -/
def reserved : List String := "!" :: "case" :: "for" :: "if" :: "in" :: "until" :: "while" ::
  "\x7b" :: closers

/-- The operators between commands; the longer ones come first. -/
def operators : List String := ["&&", "||", ";;", "&", "|", ";", "(", ")"]

/-- How a message names the token that comes next. -/
def found (cs : List Char) : String :=
  match cs with
  | [] => "end of file"
  | '\n' :: _ => "newline"
  | '<' :: _ => "redirection"
  | '>' :: _ => "redirection"
  | cs =>
    match operators.find? fun op => op.toList.isPrefixOf cs with
    | some op => "\"" ++ op ++ "\""
    | none =>
      let word := bareWord cs
      if reserved.contains word then "\"" ++ word ++ "\"" else "word"

/-- Gives up because of the token that comes next. -/
def unexpected {α : Type} : Reading α := do refuse (found (← rest) ++ " unexpected")

/-- Gives up because another token should come next. -/
def expecting {α : Type} (token : String) : Reading α := do
  refuse (found (← rest) ++ " unexpected (expecting \"" ++ token ++ "\")")

/-- A list of commands ends here. -/
def atListEnd (cs : List Char) : Bool :=
  match cs with
  | [] => true
  | ')' :: _ => true
  | ';' :: ';' :: _ => true
  | cs => closers.contains (bareWord cs)

/-- Adds a text to the parts of a word. -/
def addText (parts : List Part) (text : String) (quoted : Bool) : List Part :=
  match parts with
  | .text before q :: more =>
    if q == quoted then .text (before ++ text) quoted :: more
    else .text text quoted :: parts
  | parts => .text text quoted :: parts

/-- The characters up to the two brackets that close an arithmetic expression. -/
def arithmeticText (depth : Nat) : List Char → Option (List Char × List Char)
  | [] => none
  | ')' :: rest =>
    if depth == 0 then
      match rest with
      | ')' :: rest => some ([], rest)
      | _ => none
    else (arithmeticText (depth - 1) rest).map fun (cs, after) => (')' :: cs, after)
  | '(' :: rest => (arithmeticText (depth + 1) rest).map fun (cs, after) => ('(' :: cs, after)
  | c :: rest => (arithmeticText depth rest).map fun (cs, after) => (c :: cs, after)

/-- The characters up to the next back quote that is not escaped. -/
def backquoteText : List Char → Option (List Char × List Char)
  | [] => none
  | c :: rest =>
    if c.toNat == 0x60 then some ([], rest)
    else if c == '\\' then
      match rest with
      | d :: rest =>
        (backquoteText rest).map fun (cs, after) =>
          if d.toNat == 0x60 || d == '\\' || d == '$' then (d :: cs, after)
          else (c :: d :: cs, after)
      | [] => none
    else (backquoteText rest).map fun (cs, after) => (c :: cs, after)

/-- The form of a parameter after its name, and what is left. -/
def readForm (cs : List Char) : Option (Form × List Char) :=
  match cs with
  | '}' :: _ => some (.plain, cs)
  | ':' :: '-' :: rest => some (.otherwise true, rest)
  | ':' :: '=' :: rest => some (.assigning true, rest)
  | ':' :: '?' :: rest => some (.demanding true, rest)
  | ':' :: '+' :: rest => some (.instead true, rest)
  | '-' :: rest => some (.otherwise false, rest)
  | '=' :: rest => some (.assigning false, rest)
  | '?' :: rest => some (.demanding false, rest)
  | '+' :: rest => some (.instead false, rest)
  | '#' :: '#' :: rest => some (.without true true, rest)
  | '#' :: rest => some (.without true false, rest)
  | '%' :: '%' :: rest => some (.without false true, rest)
  | '%' :: rest => some (.without false false, rest)
  | _ => none

/-- The name of a parameter at the start, and what is left. -/
def readParameterName (cs : List Char) : Option (String × List Char) :=
  match cs with
  | c :: rest =>
    if startsName c then
      let name := cs.takeWhile inName
      some (String.ofList name, cs.drop name.length)
    else if c.isDigit || "@*#?-$!".toList.contains c then some (String.singleton c, rest)
    else none
  | [] => none

/-- What a place in a word is inside of. -/
inductive Context
  /-- Outside quotes. -/
  | bare
  /-- In a word inside braces, outside quotes. -/
  | braced
  /-- In a word inside braces, inside quotes. -/
  | bracedQuoted
  /-- Between quotes. -/
  | quoted
  /-- In a document. -/
  | document
deriving DecidableEq, Repr

/-- Everything is taken as quoted. -/
def Context.isQuoted : Context → Bool
  | bare => false
  | braced => false
  | bracedQuoted => true
  | quoted => true
  | document => true

/-- The character ends this context. -/
def Context.endsAt : Context → Char → Bool
  | bare, c => endsWord c
  | braced, c => c == '}'
  | bracedQuoted, c => c == '}'
  | quoted, c => c == '"'
  | document, _ => false

/-- A backslash takes away the meaning of the character. -/
def Context.escapes (context : Context) (c : Char) : Bool :=
  c == '$' || c == '\\' || c == '\n' || c.toNat == 0x60 || (c == '"' && context != .document)

/-- The word is a plain name. -/
def plainText? : Word → Option String
  | [.text text false] => some text
  | _ => none

/-- Splits an assignment into its name and the parts of its value. -/
def assignment? : Word → Option (String × Word)
  | .text text false :: more =>
    let name := text.toList.takeWhile (· != '=')
    if name.length < text.length && isName name then
      let value := text.toList.drop (name.length + 1)
      some (String.ofList name,
        if value.isEmpty then more else .text (String.ofList value) false :: more)
    else none
  | _ => none

/-- The text of a word in which nothing is replaced. -/
def rawText (parts : List Part) : String × Bool :=
  (String.join (parts.map fun
    | .text text _ => text
    | .parameter name .. => "$" ++ name
    | _ => ""),
    parts.any fun
      | .text _ quoted => quoted
      | _ => false)

/-- The lines of a document up to its delimiter. -/
def documentLines (delimiter : List Char) (dropsTabs : Bool) :
    Nat → List Char → List Char × List Char × Nat
  | 0, cs => ([], cs, 0)
  | _, [] => ([], [], 0)
  | fuel + 1, cs =>
    let line := cs.takeWhile (· != '\n')
    let rest := cs.drop (line.length + 1)
    let line := if dropsTabs then line.dropWhile (· == '\t') else line
    if line == delimiter then ([], rest, 1)
    else
      let (more, rest, count) := documentLines delimiter dropsTabs fuel rest
      (line ++ '\n' :: more, rest, count + 1)

/-- Counts a line break in a word; those of documents are counted elsewhere. -/
def countIn (context : Context) (c : Char) : Reading Unit :=
  if context == .document then pure () else countLines [c]

/-- The parameter in braces whose name or form is malformed: nothing takes its place. -/
def malformedParameter (quoted : Bool) : Reading Part := do
  setRest (((← rest).dropWhile (· != '}')).drop 1)
  return .parameter "" .malformed [] quoted

mutual

/-- Reads the parts of a word up to the end of their context. -/
def parts (context : Context) : Nat → List Part → Reading (List Part)
  | 0, _ => refuse "too deep"
  | fuel + 1, before => do
    match ← rest with
    | [] =>
      match context with
      | .bare => return before.reverse
      | .document => return before.reverse
      | .braced => refuse "Missing '\x7d'"
      | _ => refuse "Unterminated quoted string"
    | c :: more =>
      if context.endsAt c then return before.reverse
      else if c == '$' then do
        setRest more
        let part ← dollar context fuel
        parts context fuel (part :: before)
      else if c.toNat == 0x60 then
        match backquoteText more with
        | none => refuse "EOF in backquote substitution"
        | some (inner, after) => do
          setRest inner
          let body ← list fuel
          setRest after
          parts context fuel (.output body context.isQuoted :: before)
      else if context.isQuoted then
        match c, more with
        | '\\', d :: after => do
          setRest after
          countIn context d
          if d == '\n' && context.escapes d then parts context fuel before
          else if context.escapes d then
            parts context fuel (addText before (String.singleton d) true)
          else parts context fuel (addText before (String.ofList [c, d]) true)
        | _, _ => do
          setRest more
          countIn context c
          if c == '"' && context == .bracedQuoted then parts context fuel before
          else parts context fuel (addText before (String.singleton c) true)
      else if c == '\\' then
        match more with
        | '\n' :: after => do
          setRest after
          countLines ['\n']
          parts context fuel before
        | d :: after => do
          setRest after
          parts context fuel (addText before (String.singleton d) true)
        | [] => do
          setRest []
          parts context fuel (addText before "\\" true)
      else if c == '\'' then
        let inner := more.takeWhile (· != '\'')
        countLines inner
        match more.drop inner.length with
        | _ :: after => do
          setRest after
          parts context fuel (addText before (String.ofList inner) true)
        | [] => refuse "Unterminated quoted string"
      else if c == '"' then do
        setRest more
        let inner ← parts .quoted fuel []
        setRest ((← rest).drop 1)
        parts context fuel (inner.reverse ++ addText before "" true)
      else do
        setRest more
        parts context fuel (addText before (String.singleton c) false)

/-- Reads what follows a dollar sign. -/
def dollar (context : Context) : Nat → Reading Part
  | 0 => refuse "too deep"
  | fuel + 1 => do
    let quoted := context.isQuoted
    match ← rest with
    | '(' :: '(' :: more =>
      match arithmeticText 0 more with
      | none => refuse "Missing '))'"
      | some (inner, after) => do
        setRest inner
        let expression ← parts .document fuel []
        setRest after
        return .arithmetic expression quoted
    | '(' :: more => do
      setRest more
      let body ← list fuel
      match ← rest with
      | ')' :: after => do
        setRest after
        return .output body quoted
      | _ => expecting ")"
    | '{' :: '#' :: more =>
      match readParameterName more with
      | some (name, '}' :: after) => do
        setRest after
        return .parameter name .length [] quoted
      | _ =>
        match more with
        | '}' :: after => do
          setRest after
          return .parameter "#" .plain [] quoted
        | _ => malformedParameter quoted
    | '{' :: more =>
      let digits := more.takeWhile Char.isDigit
      let named := if digits.isEmpty then readParameterName more
        else some (String.ofList digits, more.drop digits.length)
      match named with
      | none => malformedParameter quoted
      | some (name, after) =>
        match readForm after with
        | none =>
          if after.isEmpty then refuse "Missing '\x7d'" else malformedParameter quoted
        | some (form, after) => do
          setRest after
          let word ← parts (if quoted then .bracedQuoted else .braced) fuel []
          setRest ((← rest).drop 1)
          return .parameter name form word quoted
    | cs =>
      match readParameterName cs with
      | some (name, after) => do
        setRest after
        return .parameter name .plain [] quoted
      | none => return .text "$" quoted

/-- Goes over line breaks, and reads the documents that they start. -/
def skipNewlines : Nat → Reading Unit
  | 0 => refuse "too deep"
  | fuel + 1 => do
    skipBlanks
    match ← rest with
    | '\n' :: more => do
      modify fun s => { s with rest := more, line := s.line + 1 }
      let announced := (← get).announced
      modify fun s => { s with announced := [] }
      readDocuments fuel announced
      skipNewlines fuel
    | _ => return ()

/-- Reads documents one after the other. -/
def readDocuments : Nat → List Announced → Reading Unit
  | 0, _ => refuse "too deep"
  | _, [] => return ()
  | fuel + 1, document :: more => do
    let cs ← rest
    let (body, after, count) := documentLines document.delimiter document.dropsTabs cs.length cs
    let word ←
      if document.expands then do
        setRest body
        parts .document fuel []
      else pure [.text (String.ofList body) true]
    modify fun s => { s with
      rest := after, line := s.line + count, documents := s.documents ++ [word] }
    readDocuments fuel more

/-- Reads a redirection, if one stands here. -/
def redirect? : Nat → Reading (Option Redirect)
  | 0 => refuse "too deep"
  | fuel + 1 => do
    let cs ← rest
    let digits := cs.takeWhile Char.isDigit
    let number (fallback : Nat) : Nat :=
      match digits with
      | [d] => d.toNat - 48
      | _ => fallback
    let target (after : List Char) : Reading Word := do
      setRest (blanksDropped after)
      match ← parts .bare fuel [] with
      | [] => unexpected
      | word => return word
    if digits.length > 1 then return none
    match cs.drop digits.length with
    | '<' :: '<' :: after => do
      let dropsTabs := after.head? == some '-'
      let word ← target (if dropsTabs then after.drop 1 else after)
      let (text, quoted) := rawText word
      let s ← get
      set (s.announce { delimiter := text.toList, expands := !quoted, dropsTabs })
      return some (.document (number 0) (s.documents.length + s.announced.length))
    | '<' :: '&' :: after => return some (.duplicate (number 0) (← target after))
    | '<' :: after => return some (.file (number 0) .read (← target after))
    | '>' :: '>' :: after => return some (.file (number 1) .append (← target after))
    | '>' :: '&' :: after => return some (.duplicate (number 1) (← target after))
    | '>' :: '|' :: after => return some (.file (number 1) .write (← target after))
    | '>' :: after => return some (.file (number 1) .write (← target after))
    | _ => return none

/-- Reads all redirections that stand here. -/
def redirects : Nat → Reading (List Redirect)
  | 0 => refuse "too deep"
  | fuel + 1 => do
    skipBlanks
    match ← redirect? fuel with
    | some r => return r :: (← redirects fuel)
    | none => return []

/-- Reads the words and redirections of a simple command. -/
def simple (line : Nat) : Nat → List (String × Word) → List Word → List Redirect → Reading Node
  | 0, _, _, _ => refuse "too deep"
  | fuel + 1, assignments, words, rs => do
    skipBlanks
    match ← redirect? fuel with
    | some r => simple line fuel assignments words (rs ++ [r])
    | none =>
      match ← parts .bare fuel [] with
      | [] => return .simple line assignments words rs
      | word =>
        match words, assignment? word with
        | [], some assignment => simple line fuel (assignments ++ [assignment]) words rs
        | _, _ =>
          match words, plainText? word, blanksDropped (← rest) with
          | [], some name, '(' :: after =>
            match blanksDropped after with
            | ')' :: after => do
              setRest after
              skipNewlines fuel
              return .define name (← command fuel)
            | after => do
              setRest after
              expecting ")"
          | _, _, _ => simple line fuel assignments (words ++ [word]) rs

/-- Expects a word that belongs to a compound command. -/
def expect (word : String) : Nat → Reading Unit
  | 0 => refuse "too deep"
  | fuel + 1 => do
    skipNewlines fuel
    let cs ← rest
    if bareWord cs == word then setRest (cs.drop word.length)
    else expecting word

/-- Reads the parts of a choice after its first word. -/
def choice : Nat → Reading Node
  | 0 => refuse "too deep"
  | fuel + 1 => do
    let condition ← body fuel
    expect "then" fuel
    let yes ← body fuel
    let cs ← rest
    match bareWord cs with
    | "elif" => do
      setRest (cs.drop 4)
      return .choice condition yes (← choice fuel) []
    | "else" => do
      setRest (cs.drop 4)
      let no ← body fuel
      expect "fi" fuel
      return .choice condition yes no []
    | _ => do
      expect "fi" fuel
      return .choice condition yes .nothing []

/-- Reads the words of a repetition. -/
def wordList : Nat → Reading (List Word)
  | 0 => refuse "too deep"
  | fuel + 1 => do
    skipBlanks
    match ← parts .bare fuel [] with
    | [] => return []
    | word => return word :: (← wordList fuel)

/-- Reads the patterns of a branch up to the closing bracket. -/
def patterns : Nat → Reading (List Word)
  | 0 => refuse "too deep"
  | fuel + 1 => do
    skipBlanks
    let word ← parts .bare fuel []
    skipBlanks
    match ← rest with
    | '|' :: after => do
      setRest after
      return word :: (← patterns fuel)
    | ')' :: after => do
      setRest after
      return [word]
    | _ => expecting ")"

/-- Reads the branches of a selection. -/
def branches : Nat → Reading (List (List Word × Node))
  | 0 => refuse "too deep"
  | fuel + 1 => do
    skipNewlines fuel
    let cs ← rest
    if bareWord cs == "esac" then
      setRest (cs.drop 4)
      return []
    if cs.isEmpty then expecting ")"
    if cs.head? == some '(' then setRest (cs.drop 1)
    let ps ← patterns fuel
    let commands ← list fuel
    match ← rest with
    | ';' :: ';' :: after => setRest after
    | cs => if bareWord cs != "esac" then expecting ";;"
    return (ps, commands) :: (← branches fuel)

/-- Reads a command. -/
def command : Nat → Reading Node
  | 0 => refuse "too deep"
  | fuel + 1 => do
    skipBlanks
    let cs ← rest
    match cs with
    | '(' :: more => do
      setRest more
      let inner ← body fuel
      match ← rest with
      | ')' :: after => do
        setRest after
        return .subshell inner (← redirects fuel)
      | _ => expecting ")"
    | _ =>
      match bareWord cs with
      | "\x7b" => do
        setRest (cs.drop 1)
        let inner ← body fuel
        expect "\x7d" fuel
        return .group inner (← redirects fuel)
      | "if" => do
        setRest (cs.drop 2)
        let node ← choice fuel
        return .group node (← redirects fuel)
      | "while" => do
        setRest (cs.drop 5)
        repetition false fuel
      | "until" => do
        setRest (cs.drop 5)
        repetition true fuel
      | "for" => do
        setRest (blanksDropped (cs.drop 3))
        let name := bareWord (← rest)
        if !isName name.toList then refuse "Bad for loop variable"
        setRest ((← rest).drop name.length)
        skipNewlines fuel
        let cs ← rest
        let words ←
          if bareWord cs == "in" then do
            setRest (cs.drop 2)
            let words ← wordList fuel
            match ← rest with
            | ';' :: _ => pure (some words)
            | '\n' :: _ => pure (some words)
            | _ => unexpected
          else pure none
        skipSemicolon
        expect "do" fuel
        let inner ← body fuel
        expect "done" fuel
        return .each name words inner (← redirects fuel)
      | "case" => do
        setRest (blanksDropped (cs.drop 4))
        let subject ← parts .bare fuel []
        expect "in" fuel
        let bs ← branches fuel
        return .select subject bs (← redirects fuel)
      | word => do
        if closers.contains word then unexpected
        let line := (← get).line
        match ← simple line fuel [] [] [] with
        | .simple _ [] [] [] => unexpected
        | node => return node

/-- Goes over a semicolon. -/
def skipSemicolon : Reading Unit := do
  skipBlanks
  match ← rest with
  | ';' :: after => setRest after
  | _ => pure ()

/-- Reads the rest of a loop. -/
def repetition (negated : Bool) : Nat → Reading Node
  | 0 => refuse "too deep"
  | fuel + 1 => do
    let condition ← body fuel
    expect "do" fuel
    let inner ← body fuel
    expect "done" fuel
    return .loop negated condition inner (← redirects fuel)

/-- Reads commands joined by pipes. -/
def pipeline : Nat → Reading Node
  | 0 => refuse "too deep"
  | fuel + 1 => do
    skipBlanks
    let cs ← rest
    if bareWord cs == "!" then
      setRest (cs.drop 1)
      skipBlanks
      if bareWord (← rest) == "!" then unexpected
      return .negation (← pipeline fuel)
    let first ← command fuel
    skipBlanks
    match ← rest with
    | '|' :: '|' :: _ => return first
    | '|' :: after => do
      setRest after
      skipNewlines fuel
      return .pipeline first (← pipeline fuel)
    | _ => return first

/-- Reads pipelines joined by conditions, after a first one. -/
def conditions : Nat → Node → Reading Node
  | 0, _ => refuse "too deep"
  | fuel + 1, first => do
    skipBlanks
    match ← rest with
    | '&' :: '&' :: after => do
      setRest after
      skipNewlines fuel
      conditions fuel (.conjunction first (← pipeline fuel))
    | '|' :: '|' :: after => do
      setRest after
      skipNewlines fuel
      conditions fuel (.disjunction first (← pipeline fuel))
    | _ => return first

/-- Reads a list of commands that is not empty, unless the script ends. -/
def body : Nat → Reading Node
  | 0 => refuse "too deep"
  | fuel + 1 => do
    let commands ← list fuel
    match commands, ← rest with
    | .nothing, _ :: _ => unexpected
    | commands, _ => return commands

/-- Reads a list of commands up to its end. -/
def list : Nat → Reading Node
  | 0 => refuse "too deep"
  | fuel + 1 => do
    skipNewlines fuel
    if atListEnd (← rest) then return .nothing
    let first ← conditions fuel (← pipeline fuel)
    skipBlanks
    match ← rest with
    | ';' :: ';' :: _ => return first
    | ';' :: after => do
      setRest after
      return .sequence first (← list fuel)
    | '&' :: after => do
      setRest after
      return .sequence (.background first) (← list fuel)
    | '\n' :: _ => return .sequence first (← list fuel)
    | _ => return first

end

mutual

/-- Reads the commands of a line. -/
def line : Nat → Reading Node
  | 0 => refuse "too deep"
  | fuel + 1 => do
    let first ← conditions fuel (← pipeline fuel)
    skipBlanks
    match ← rest with
    | ';' :: ';' :: _ => unexpected
    | ';' :: after => do
      setRest after
      restOfLine fuel first
    | '&' :: after => do
      setRest after
      restOfLine fuel (.background first)
    | '\n' :: _ => return first
    | [] => return first
    | _ => unexpected

/-- Reads the commands of a line after a first one. -/
def restOfLine : Nat → Node → Reading Node
  | 0, _ => refuse "too deep"
  | fuel + 1, first => do
    skipBlanks
    match ← rest with
    | '\n' :: _ => return first
    | [] => return first
    | _ => return .sequence first (← line fuel)

end

end Reading

/-- Reads a script from its first line on, after some lines that were read, until
a line is malformed. The first number bounds the lines, the second the depth of each. -/
def Script.readLines : Nat → Nat → Source → Node → Script
  | 0, _, s, before => { body := before, documents := s.documents }
  | lines + 1, depth, s, before =>
    match (Reading.skipNewlines depth).run s with
    | .error fault => { body := before, documents := s.documents, fault := some fault }
    | .ok ((), s) =>
      if s.rest.isEmpty then { body := before, documents := s.documents }
      else
        match (Reading.line depth).run s with
        | .error fault => { body := before, documents := s.documents, fault := some fault }
        | .ok (node, s) => readLines lines depth s (.sequence before node)

/-- Reads a script. -/
def Script.read (text : String) : Script :=
  readLines (text.length + 1) (8 * text.length + 32) { rest := text.toList } .nothing

end PlaybookRunner.Shell
