import PlaybookRunner.Machine.Pattern
import PlaybookRunner.Machine.TextTools

/-!
# Editing lines by a script

A script is a row of commands. Each is run for the lines that its address
selects: it replaces what a pattern takes, prints the line, drops it, or ends
the editing. A line that is not dropped is printed at the end, unless that is
switched off.
-/

namespace PlaybookRunner.StreamEditor

/-- Which lines a command is for. -/
inductive Address
  | line (n : Nat)
  | last
  | fitting (pattern : LinePattern)

/-- What a command does with a line. -/
inductive Action
  | substitute (pattern : LinePattern) (replacement : List Char) (everywhere printed : Bool)
  | print
  | drop
  | quit

/-- A command: what it does, from which line on and up to which one. -/
structure Command where
  start : Option Address := none
  stop : Option Address := none
  negated : Bool := false
  action : Action

/-- A line while commands run for it. -/
structure Editing where
  line : List Char
  number : Nat
  isLast : Bool
  printed : List (List Char) := []
  dropped : Bool := false
  ended : Bool := false

/-- The text up to a delimiter, in which a backslash takes away its meaning. -/
def delimited (delimiter : Char) : List Char → Option (List Char × List Char)
  | [] => none
  | '\\' :: c :: rest =>
    (delimited delimiter rest).map fun (text, after) =>
      if c == delimiter then (c :: text, after)
      else if c == 'n' then ('\n' :: text, after)
      else ('\\' :: c :: text, after)
  | c :: rest =>
    if c == delimiter then some ([], rest)
    else (delimited delimiter rest).map fun (text, after) => (c :: text, after)

/-- What takes the place of a hit: an ampersand stands for the hit itself. -/
def filled (hit : List Char) : List Char → List Char
  | [] => []
  | '\\' :: c :: rest => c :: filled hit rest
  | '&' :: rest => hit ++ filled hit rest
  | c :: rest => c :: filled hit rest

/-- The address selects a line. -/
def Address.selects (e : Editing) : Address → Bool
  | line n => e.number == n
  | last => e.isLast
  | fitting pattern => pattern.fits e.line

/-- Reads an address. -/
def readAddress? (extended : Bool) (cs : List Char) : Option (Address × List Char) :=
  match cs with
  | '$' :: rest => some (.last, rest)
  | '/' :: rest =>
    (delimited '/' rest).map fun (text, after) =>
      (.fitting (LinePattern.ofText extended (String.ofList text)), after)
  | cs =>
    let digits := cs.takeWhile Char.isDigit
    if digits.isEmpty then none
    else some (.line (Printf.digitsValue 10 digits), cs.drop digits.length)

/-- Reads what a command does. -/
def readAction? (extended : Bool) : List Char → Option (Action × List Char)
  | 'p' :: rest => some (.print, rest)
  | 'd' :: rest => some (.drop, rest)
  | 'q' :: rest => some (.quit, rest)
  | 's' :: delimiter :: rest => do
    let (pattern, rest) ← delimited delimiter rest
    let (replacement, rest) ← delimited delimiter rest
    let flags := rest.takeWhile fun c => c == 'g' || c == 'p' || c == 'i' || c == 'I'
    let pattern := LinePattern.ofText extended (String.ofList pattern)
    let pattern := if flags.contains 'i' || flags.contains 'I' then pattern.anyCase else pattern
    return (.substitute pattern replacement (flags.contains 'g') (flags.contains 'p'),
      rest.drop flags.length)
  | _ => none

/-- Reads the commands of a script. -/
def readCommands? (extended : Bool) : Nat → List Char → Option (List Command)
  | 0, _ => none
  | _, [] => some []
  | fuel + 1, c :: rest => do
    if c == ';' || c == ' ' || c == '\n' then readCommands? extended fuel rest
    else
      let (start, cs) := match readAddress? extended (c :: rest) with
        | some (address, cs) => (some address, cs)
        | none => (none, c :: rest)
      let (stop, cs) := match cs with
        | ',' :: cs =>
          match readAddress? extended cs with
          | some (address, cs) => (some address, cs)
          | none => (none, cs)
        | cs => (none, cs)
      let (negated, cs) := match cs with
        | '!' :: cs => (true, cs)
        | cs => (false, cs)
      let (action, cs) ← readAction? extended cs
      return { start, stop, negated, action } :: (← readCommands? extended fuel cs)

/-- Does what a command says with a line. -/
def Action.apply (e : Editing) : Action → Editing
  | print => { e with printed := e.printed ++ [e.line] }
  | drop => { e with dropped := true }
  | quit => { e with ended := true }
  | substitute pattern replacement everywhere printed =>
    if pattern.fits e.line then
      let line := pattern.replaced everywhere (filled · replacement) (e.line.length + 1) true e.line
      { e with line, printed := if printed then e.printed ++ [line] else e.printed }
    else e

/-- Runs commands for a line. With every command comes whether its range is open,
and so it does afterwards. -/
def runCommands : List (Command × Bool) → Editing → List (Command × Bool) × Editing
  | [], e => ([], e)
  | (command, isOpen) :: rest, e =>
    if e.dropped || e.ended then ((command, isOpen) :: rest, e)
    else
      let (selected, isOpen) :=
        match command.start, command.stop with
        | none, _ => (true, false)
        | some start, none => (start.selects e, false)
        | some start, some stop =>
          if isOpen then (true, !stop.selects e)
          else if start.selects e then
            (true, match stop with
              | .line n => e.number < n
              | _ => true)
          else (false, false)
      let e := if selected != command.negated then command.action.apply e else e
      let (rest, e) := runCommands rest e
      ((command, isOpen) :: rest, e)

/-- Edits lines from one with a number on. -/
def editLines (quiet : Bool) : List (Command × Bool) → Nat → List (List Char) → List (List Char)
  | _, _, [] => []
  | commands, number, line :: rest =>
    let (commands, e) := runCommands commands { line, number, isLast := rest.isEmpty }
    let written := e.printed ++ (if e.dropped || quiet then [] else [e.line])
    written ++ (if e.ended then [] else editLines quiet commands (number + 1) rest)

/-- The scripts that options give, the other options, and the operands. -/
def splitScripts : List String → List String × List Char × List String
  | "-e" :: script :: rest =>
    let (scripts, options, operands) := splitScripts rest
    (script :: scripts, options, operands)
  | arg :: rest =>
    let (scripts, options, operands) := splitScripts rest
    match arg.toList with
    | '-' :: c :: more => (scripts, c :: more ++ options, operands)
    | _ => (scripts, options, arg :: operands)
  | [] => ([], [], [])

/-- The program that edits lines by a script. -/
def program : Program := fun args => do
  let (scripts, options, operands) := splitScripts args
  let (script, paths) := match scripts, operands with
    | [], script :: paths => (script, paths)
    | scripts, paths => ("\n".intercalate scripts, paths)
  let extended := options.contains 'E' || options.contains 'r'
  match readCommands? extended (script.length + 1) script.toList with
  | none =>
    Process.complain ("sed: -e expression #1, char " ++ toString script.length ++
      ": unknown command")
    return 1
  | some commands =>
    let (status, bytes) ← Process.contents "sed" paths
    let lines := (TextTools.linesOf bytes).map Bytes.decode
    let edited := editLines (options.contains 'n') (commands.map (·, false)) 1 lines
    let written := TextTools.unlines (edited.map fun line => Bytes.ofText (String.ofList line))
    let unended := bytes.getLast?.any (· != 10)
    Process.write .output (if unended then written.dropLast else written)
    return status

end PlaybookRunner.StreamEditor
