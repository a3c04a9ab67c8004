import PlaybookRunner.Dict
import PlaybookRunner.Machine.Files

/-!
# Processes

A process works in a directory with an environment, an input and two outputs.
What it writes is kept in order, so that both outputs can go to one place.
-/

namespace PlaybookRunner

/-- The two outputs of a process. -/
inductive Channel
  | output
  | errors
deriving DecidableEq, Repr

/-- What a process sees and leaves behind. -/
structure ProcessState where
  files : Files := []
  dir : Place := []
  environment : Dict String := []
  input : Bytes := []
  written : Array (Channel × Bytes) := #[]
deriving Inhabited

/-- A part of a process. -/
abbrev Process := StateM ProcessState

/-- A program: from its arguments to the process that it runs and its exit status. -/
abbrev Program := List String → Process Nat

/-- The bytes that went to a channel. -/
def ProcessState.on (s : ProcessState) (channel : Channel) : Bytes :=
  (s.written.toList.filter fun (c, _) => c == channel).flatMap Prod.snd

namespace Process

/-- Writes bytes to a channel. -/
def write (channel : Channel) (bytes : Bytes) : Process Unit :=
  modify fun s => if bytes.isEmpty then s else { s with written := s.written.push (channel, bytes) }

/-- Writes a text to the output. -/
def print (text : String) : Process Unit := write .output (Bytes.ofText text)

/-- Writes a line to the output. -/
def printLine (text : String) : Process Unit := print (text ++ "\n")

/-- Writes a line to the errors. -/
def complain (text : String) : Process Unit := write .errors (Bytes.ofText (text ++ "\n"))

/-- Takes the whole input. -/
def takeInput : Process Bytes := modifyGet fun s => (s.input, { s with input := [] })

/-- Changes the files. -/
def changeFiles (f : Files → Files) : Process Unit := modify fun s => { s with files := f s.files }

/-- Reads a file; a lone dash stands for the input. -/
def readFile (path : String) : Process (Except FileFault Bytes) := do
  if path == "-" then return .ok (← takeInput)
  let s ← get
  return s.files.read s.dir path

/-- Does something for every argument, and answers the worst status. -/
def forEach (args : List String) (act : String → Process Nat) : Process Nat :=
  args.foldlM (fun worst arg => return max worst (← act arg)) 0

/-- The contents of some files one after the other, or the input if there is
none; a complaint about a file that cannot be read starts with what is given for it. -/
def contentsOr (start : String → String) (paths : List String) : Process (Nat × Bytes) := do
  if paths.isEmpty then return (0, ← takeInput)
  paths.foldlM (fun (status, bytes) path => do
    match ← readFile path with
    | .ok more => return (status, bytes ++ more)
    | .error fault =>
      complain (start path ++ ": " ++ fault.words)
      return (1, bytes)) (0, [])

/-- Likewise, where complaints start with the name of a program and the path. -/
def contents (program : String) (paths : List String) : Process (Nat × Bytes) :=
  contentsOr (fun path => program ++ ": " ++ path) paths

end Process

/-- Options of one letter each and the operands after them: options stand first,
a double dash ends them, and a lone dash is an operand. -/
def splitOptions : List String → List Char × List String
  | [] => ([], [])
  | arg :: rest =>
    match arg.toList with
    | ['-', '-'] => ([], rest)
    | '-' :: c :: more =>
      let (options, operands) := splitOptions rest
      (c :: more ++ options, operands)
    | _ => ([], arg :: rest)

end PlaybookRunner
