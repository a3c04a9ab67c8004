import PlaybookRunner.Machine.Calculator
import PlaybookRunner.Machine.FileTools
import PlaybookRunner.Machine.StreamEditor

/-!
# The programs of a machine

Programs are known by name. They stand in two directories, so that a path into
one of these also leads to them.
-/

namespace PlaybookRunner.Programs

/-- A program that does nothing and answers a status. -/
def still (status : Nat) : Program := fun _ => return status

/-- Prints the environment. -/
def env : Program := fun _ => do
  for (name, value) in (← get).environment do
    Process.printLine (name ++ "=" ++ value)
  return 0

/-- The programs that work by themselves, by name. -/
def table : Dict Program :=
  [("echo", TextTools.echo), ("printf", Printf.program), ("cat", TextTools.cat),
    ("true", still 0), ("false", still 1), ("test", Condition.program "test"),
    ("[", Condition.bracketProgram), ("expr", Calculator.program),
    ("basename", FileTools.basename), ("dirname", FileTools.dirname), ("pwd", FileTools.pwd),
    ("wc", TextTools.wc), ("tr", TextTools.tr), ("head", TextTools.head),
    ("tail", TextTools.tail), ("sort", TextTools.sort), ("uniq", TextTools.uniq),
    ("grep", TextTools.grep), ("cut", TextTools.cut), ("rev", TextTools.rev),
    ("tac", TextTools.tac), ("seq", TextTools.seq), ("tee", TextTools.tee),
    ("touch", FileTools.touch), ("mkdir", FileTools.mkdir), ("rmdir", FileTools.rmdir),
    ("rm", FileTools.rm), ("cp", FileTools.transfer "cp" false),
    ("mv", FileTools.transfer "mv" true), ("ls", FileTools.ls), ("chmod", FileTools.chmod),
    ("sed", StreamEditor.program), ("sleep", still 0), ("sync", still 0), ("env", env)]

/-- The directories in which programs stand. -/
def directories : List Place := [["bin"], ["usr", "bin"]]

end PlaybookRunner.Programs
