import PlaybookRunner.Machine.Condition
import PlaybookRunner.Machine.Pattern

/-!
# Programs on texts

Small programs that copy, count, cut and order their input.
-/

namespace PlaybookRunner.TextTools

/-- The lines of some bytes, each without its line feed, and whether the last
one had a line feed. -/
def linesOf (bytes : Bytes) : List Bytes :=
  match (splitAt bytes).reverse with
  | [] => []
  | last :: before => before.reverse ++ (if last.isEmpty then [] else [last])
where
  splitAt : Bytes → List Bytes
    | [] => [[]]
    | b :: rest =>
      if b == 10 then [] :: splitAt rest
      else
        match splitAt rest with
        | [] => [[b]]
        | line :: lines => (b :: line) :: lines

/-- Lines with a line feed after each. -/
def unlines (lines : List Bytes) : Bytes := lines.flatMap fun line => line ++ [10]

/-- The program that prints its arguments. -/
def echo : Program := fun args => do
  let (args, ending) := match args with
    | "-n" :: rest => (rest, "")
    | args => (args, "\n")
  let (args, escapes) := match args with
    | "-e" :: rest => (rest, true)
    | args => (args, false)
  let text := " ".intercalate args
  if escapes then
    let (bytes, goesOn) := Printf.unescape true text.length text.toList
    Process.write .output bytes
    if goesOn then Process.print ending
  else Process.print (text ++ ending)
  return 0

/-- Prints arguments with their escapes replaced. -/
def echoEscaped : Program := fun args => do
  let (args, ending) := match args with
    | "-n" :: rest => (rest, "")
    | args => (args, "\n")
  let text := " ".intercalate args
  let (bytes, goesOn) := Printf.unescape true text.length text.toList
  Process.write .output bytes
  if goesOn then Process.print ending
  return 0

/-- Numbers at the right of columns. -/
def column (width : Nat) (n : Nat) : String :=
  let digits := toString n
  String.ofList (List.replicate (width - digits.length) ' ') ++ digits

/-- Copies files to the output, with numbers before the lines if asked to. -/
def cat : Program := fun args => do
  let (options, paths) := splitOptions args
  let (status, bytes) ← Process.contents "cat" paths
  if options.contains 'n' then
    for (line, n) in (linesOf bytes).zipIdx 1 do
      Process.print (column 6 n ++ "\t")
      Process.write .output (line ++ [10])
  else Process.write .output bytes
  return status

/-- The number of words of some bytes. -/
def wordCount (bytes : Bytes) : Nat := go false bytes
where
  go (inWord : Bool) : Bytes → Nat
    | [] => 0
    | b :: rest =>
      if b == 32 || (9 ≤ b && b ≤ 13) then go false rest
      else if inWord then go true rest
      else go true rest + 1

/-- Counts lines, words and bytes of every file, and of all together. -/
def wc : Program := fun args => do
  let (options, paths) := splitOptions args
  let wants (c : Char) : Bool := options.contains c || (options.isEmpty && c != 'm')
  let counts (bytes : Bytes) : List Nat :=
    (if wants 'l' then [bytes.count 10] else []) ++
    (if wants 'w' then [wordCount bytes] else []) ++
    (if options.contains 'm' then [bytes.decode.length] else []) ++
    (if wants 'c' then [bytes.length] else [])
  let row (width : Nat) (name : String) (bytes : Bytes) : Process Unit :=
    Process.printLine (" ".intercalate ((counts bytes).map (column width)) ++ name)
  match paths with
  | [] =>
    let bytes ← Process.takeInput
    row (if (counts bytes).length ≤ 1 then 0 else 7) "" bytes
    return 0
  | paths =>
    let (status, all) ← Process.contents "wc" paths
    let width := if (counts all).length ≤ 1 && paths.length ≤ 1 then 0
      else (toString all.length).length
    for path in paths do
      match ← Process.readFile path with
      | .ok bytes => row width (" " ++ path) bytes
      | .error _ => pure ()
    if paths.length > 1 then row width " total" all
    return status

/-- The characters of a set with its ranges and escapes. -/
def charSet : Nat → List Char → List Char
  | 0, _ => []
  | _, [] => []
  | fuel + 1, '\\' :: c :: rest =>
    match Printf.readEscape false (c :: rest) with
    | .bytes bytes rest => bytes.decode ++ charSet fuel rest
    | .stop => c :: charSet fuel rest
  | fuel + 1, '[' :: ':' :: rest =>
    let name := String.ofList (rest.takeWhile (· != ':'))
    let after := (rest.dropWhile (· != ':')).drop 2
    let all := (List.range 128).map Char.ofNat
    let members := match name with
      | "upper" => all.filter Char.isUpper
      | "lower" => all.filter Char.isLower
      | "digit" => all.filter Char.isDigit
      | "alpha" => all.filter Char.isAlpha
      | "alnum" => all.filter Char.isAlphanum
      | "space" => all.filter fun c => c == ' ' || (9 ≤ c.toNat && c.toNat ≤ 13)
      | "blank" => [' ', '\t']
      | "punct" => all.filter fun c => 32 < c.toNat && c.toNat < 127 && !c.isAlphanum
      | _ => []
    members ++ charSet fuel after
  | fuel + 1, a :: '-' :: b :: rest =>
    ((List.range (b.toNat + 1 - a.toNat)).map fun n => Char.ofNat (a.toNat + n)) ++
      charSet fuel rest
  | fuel + 1, c :: rest => c :: charSet fuel rest

/-- The replacement of a character: its like in the other set, whose last
member stands for all that follow. -/
def translated (source target : List Char) (c : Char) : Char :=
  match source.idxOf? c with
  | some i => (target[i]?).getD (target.getLast?.getD c)
  | none => c

/-- Drops repetitions of members of a set. -/
def squeezed (members : Char → Bool) : List Char → List Char
  | a :: b :: rest =>
    if a == b && members a then squeezed members (b :: rest) else a :: squeezed members (b :: rest)
  | cs => cs

/-- Replaces or deletes characters. -/
def tr : Program := fun args => do
  let (options, sets) := splitOptions args
  let bytes ← Process.takeInput
  let setAt (i : Nat) : List Char :=
    let cs := (sets[i]?.getD "").toList
    charSet (cs.length + 1) cs
  let listed := setAt 0
  let within (c : Char) : Bool :=
    listed.contains c != (options.contains 'c' || options.contains 'C')
  let cs := bytes.decode
  let cs := if options.contains 'd' then cs.filter fun c => !within c
    else if sets.length < 2 then cs
    else if options.contains 'c' then
      cs.map fun c => if within c then ((setAt 1).getLast?).getD c else c
    else cs.map (translated listed (setAt 1))
  let squeezeSet : Char → Bool :=
    if sets.length < 2 then within else fun c => (setAt 1).contains c
  let cs := if options.contains 's' then squeezed squeezeSet cs else cs
  Process.write .output (Bytes.ofText (String.ofList cs))
  return 0

/-- The number of lines that options ask for, and the files. -/
def lineCount : List String → Nat × List String
  | "-n" :: n :: rest => ((Condition.number? n).getD 10 |>.toNat, rest)
  | arg :: rest =>
    match arg.toList with
    | '-' :: 'n' :: digits => ((Condition.number? (String.ofList digits)).getD 10 |>.toNat, rest)
    | '-' :: c :: digits =>
      if c.isDigit then ((Condition.number? (String.ofList (c :: digits))).getD 10 |>.toNat, rest)
      else (10, arg :: rest)
    | _ => (10, arg :: rest)
  | [] => (10, [])

/-- The first so many lines, with the line feeds they have. -/
def firstLines (count : Nat) : Bytes → Bytes
  | [] => []
  | b :: rest =>
    match count with
    | 0 => []
    | n + 1 => b :: firstLines (if b == 10 then n else n + 1) rest

/-- How the complaint about a file starts that cannot be opened. -/
def unopened (program path : String) : String :=
  program ++ ": cannot open '" ++ path ++ "' for reading"

/-- Prints the first lines. -/
def head : Program := fun args => do
  let (count, paths) := lineCount args
  let (status, bytes) ← Process.contentsOr (unopened "head") paths
  Process.write .output (firstLines count bytes)
  return status

/-- Prints the last lines, or those from a number on that has a plus sign. -/
def tail : Program := fun args => do
  let (count, paths) := lineCount args
  let (status, bytes) ← Process.contentsOr (unopened "tail") paths
  let fromStart := match args with
    | "-n" :: n :: _ => n.toList.head? == some '+'
    | arg :: _ => "-n+".toList.isPrefixOf arg.toList
    | [] => false
  let total := (linesOf bytes).length
  let skipped := firstLines (if fromStart then count - 1 else total - count) bytes
  Process.write .output (bytes.drop skipped.length)
  return status

/-- Bytes in the order of their values. -/
def bytesLe : Bytes → Bytes → Bool
  | [], _ => true
  | _ :: _, [] => false
  | a :: as, b :: bs => a < b || (a == b && bytesLe as bs)

/-- The whole number at the start of a line. -/
def leadingNumber (line : Bytes) : Int :=
  match (line.decode.dropWhile fun c => c == ' ' || c == '\t') with
  | '-' :: rest => -((Printf.digitsValue 10 (rest.takeWhile Char.isDigit) : Nat) : Int)
  | rest => (Printf.digitsValue 10 (rest.takeWhile Char.isDigit) : Nat)

/-- Drops lines that repeat the one before. -/
def withoutRepeats : List Bytes → List Bytes
  | a :: b :: rest =>
    if a == b then withoutRepeats (b :: rest) else a :: withoutRepeats (b :: rest)
  | lines => lines

/-- Orders lines. -/
def sort : Program := fun args => do
  let (options, paths) := splitOptions args
  let (status, bytes) ← Process.contentsOr (fun path => "sort: cannot read: " ++ path) paths
  let le (a b : Bytes) : Bool :=
    if options.contains 'n' then
      decide (leadingNumber a < leadingNumber b) ||
        (leadingNumber a == leadingNumber b && bytesLe a b)
    else bytesLe a b
  let lines := (linesOf bytes).mergeSort le
  let lines := if options.contains 'r' then lines.reverse else lines
  let lines := if options.contains 'u' then withoutRepeats lines else lines
  Process.write .output (unlines lines)
  return 2 * status

/-- Lines with the number of times they come in a row. -/
def counted : List Bytes → List (Nat × Bytes)
  | [] => []
  | a :: rest =>
    match counted rest with
    | (n, b) :: more => if a == b then (n + 1, b) :: more else (1, a) :: (n, b) :: more
    | [] => [(1, a)]

/-- Drops repeated lines. -/
def uniq : Program := fun args => do
  let (options, paths) := splitOptions args
  let (status, bytes) ← Process.contents "uniq" paths
  let groups := (counted (linesOf bytes)).filter fun (n, _) =>
    (!options.contains 'd' || n > 1) && (!options.contains 'u' || n == 1)
  let lines := groups.map fun (n, line) =>
    if options.contains 'c' then Bytes.ofText (column 7 n ++ " ") ++ line else line
  Process.write .output (unlines lines)
  return status

/-- The pattern that options make of a text. -/
def patternOf (options : List Char) (text : String) : LinePattern :=
  let pattern := if options.contains 'F' then LinePattern.literal text
    else LinePattern.ofText (options.contains 'E') text
  let pattern := if options.contains 'i' then pattern.anyCase else pattern
  if options.contains 'x' then pattern.wholeLine else pattern

/-- What a pattern takes of a line, one hit after the other. -/
def hits (pattern : LinePattern) : Nat → Bool → List Char → List (List Char)
  | 0, _, _ => []
  | fuel + 1, atStart, cs =>
    match pattern.first? atStart cs with
    | none => []
    | some (_, [], []) => []
    | some (_, [], _ :: rest) => hits pattern fuel false rest
    | some (_, hit, rest) => hit :: hits pattern fuel false rest

/-- Prints the lines that a pattern fits. -/
def grep : Program := fun args => do
  let (options, operands) := splitOptions args
  match operands with
  | [] =>
    Process.complain "Usage: grep [OPTION]... PATTERNS [FILE]...\nTry 'grep --help' for more information."
    return 2
  | text :: paths =>
    let (status, bytes) ← Process.contents "grep" paths
    let pattern := patternOf options text
    let chosen := ((linesOf bytes).zipIdx 1).filter fun (line, _) =>
      pattern.fits line.decode != options.contains 'v'
    if options.contains 'q' then pure ()
    else if options.contains 'c' then Process.printLine (toString chosen.length)
    else
      for (line, n) in chosen do
        let mark := if options.contains 'n' then toString n ++ ":" else ""
        if options.contains 'o' then
          for hit in hits pattern (line.length + 1) true line.decode do
            Process.printLine (mark ++ String.ofList hit)
        else
          Process.print mark
          Process.write .output (line ++ [10])
    return (if status > 0 then 2 else if chosen.isEmpty then 1 else 0)

/-- The numbers of a list of numbers and ranges contain a number. -/
def inRanges (spec : String) (n : Nat) : Bool :=
  (Text.splitAtChar ',' spec.toList).any fun part =>
    match Text.splitAtChar '-' part with
    | [single] => Printf.digitsValue 10 single == n
    | [low, high] =>
      Printf.digitsValue 10 low ≤ n && (high.isEmpty || n ≤ Printf.digitsValue 10 high)
    | _ => false

/-- The value of an option that stands in its own word or at the start of the next. -/
def optionValue (letter : Char) : List String → Option String
  | [] => none
  | arg :: rest =>
    match arg.toList with
    | '-' :: c :: value =>
      if c == letter then (if value.isEmpty then rest.head? else some (String.ofList value))
      else optionValue letter rest
    | _ => optionValue letter rest

/-- Prints fields or characters of every line. -/
def cut : Program := fun args => do
  let bytes ← Process.takeInput
  let delimiter := ((optionValue 'd' args).bind fun s => s.toList.head?).getD '\t'
  let pick (spec : String) (parts : List (List Char)) : List (List Char) :=
    (parts.zipIdx 1).filterMap fun (part, n) => if inRanges spec n then some part else none
  let line (bytes : Bytes) : Bytes :=
    let cs := bytes.decode
    match optionValue 'f' args, optionValue 'c' args with
    | some spec, _ =>
      if cs.contains delimiter then
        Bytes.ofText (String.ofList ([delimiter].intercalate
          (pick spec (Text.splitAtChar delimiter cs))))
      else bytes
    | none, some spec => Bytes.ofText (String.ofList ((pick spec (cs.map ([·]))).flatten))
    | none, none => bytes
  Process.write .output (unlines ((linesOf bytes).map line))
  return 0

/-- Prints every line backwards. -/
def rev : Program := fun args => do
  let (status, bytes) ← Process.contents "rev" args
  Process.write .output
    (unlines ((linesOf bytes).map fun line => Bytes.ofText (String.ofList line.decode.reverse)))
  return status

/-- Prints the lines in reverse order. -/
def tac : Program := fun args => do
  let (status, bytes) ← Process.contents "tac" args
  Process.write .output (unlines (linesOf bytes).reverse)
  return status

/-- Prints a sequence of numbers, one on a line or with a separator. -/
def seq : Program := fun args => do
  let (separator, args) := match args with
    | "-s" :: separator :: rest => (separator, rest)
    | arg :: rest =>
      match arg.toList with
      | '-' :: 's' :: separator => (String.ofList separator, rest)
      | _ => ("\n", arg :: rest)
    | [] => ("\n", [])
  let numbers := args.filterMap Condition.number?
  let (first, step, last) : Int × Int × Int := match numbers with
    | [last] => (1, 1, last)
    | [first, last] => (first, 1, last)
    | [first, step, last] => (first, step, last)
    | _ => (1, 1, 0)
  let count := if step == 0 then 0
    else if step > 0 then ((last - first) / step + 1).toNat
    else ((first - last) / (-step) + 1).toNat
  let texts := (List.range count).map fun (i : Nat) => toString (first + step * (i : Int))
  if !texts.isEmpty then Process.printLine (separator.intercalate texts)
  return 0

/-- Copies the input to the output and to files. -/
def tee : Program := fun args => do
  let (options, paths) := splitOptions args
  let bytes ← Process.takeInput
  Process.write .output bytes
  Process.forEach paths fun path => do
    let s ← get
    match s.files.writable s.dir path with
    | .ok place =>
      let old := if options.contains 'a' then (s.files.read s.dir path).toOption.getD [] else []
      set { s with files := s.files.setContent place (old ++ bytes) }
      return 0
    | .error fault =>
      Process.complain ("tee: " ++ path ++ ": " ++ fault.words)
      return 1

end PlaybookRunner.TextTools
