import PlaybookRunner.Settings.File

/-!
# Loading settings

Settings come from files of the system, of the user and of the working
directory, or from one file that is named; the environment comes last. A file
that is not there is passed over.
-/

namespace PlaybookRunner.Settings

/-- Why a file of settings cannot be used. -/
inductive Fault
  | unreadable (path reason : String)
  | malformed (path : String)
deriving DecidableEq, Repr

/-- The wording of a fault. -/
def Fault.message : Fault → String
  | unreadable path _ => "Failed to read config file: " ++ path
  | malformed path => "Failed to parse config file: " ++ path

/-- The wording of a fault with its cause, where that has words. -/
def Fault.fullMessage : Fault → String
  | unreadable path reason => (unreadable path reason).message ++ ": " ++ reason
  | malformed path => (malformed path).message

/-- What there is around a program that loads settings. -/
structure Surroundings where
  environment : Dict String
  isThere : String → Bool
  text : String → Except String String

/-- Lays the settings of a file over some. -/
def withFile (around : Surroundings) (s : Settings) (path : String) : Except Fault Settings :=
  match around.text path with
  | .error reason => .error (.unreadable path reason)
  | .ok text =>
    match ofText? path text with
    | some other => .ok (s.overlaid other)
    | none => .error (.malformed path)

/-- The home directory of the user. -/
def home? (environment : Dict String) : Option String :=
  match environment.get? "HOME" with
  | some dir => if dir == "" then none else some dir
  | none => none

/-- The files that settings come from, the later ones over the earlier ones. -/
def paths (environment : Dict String) (named : Option String) : List String :=
  match named with
  | some path => [path]
  | none =>
    ["/etc/playrun/playrun.toml"] ++
      ((home? environment).map fun dir => Path.join dir ".playrun.toml").toList ++
      ["playrun.toml"] ++ (environment.get? "PLAYRUN_CONFIG").toList

/-- The settings of one file alone. -/
def ofFile (around : Surroundings) (path : String) : Except Fault Settings :=
  withFile around {} path

/-- The settings of a program, possibly from a file that is named. -/
def load (around : Surroundings) (named : Option String) : Except Fault Settings :=
  (((paths around.environment named).filter around.isThere).foldlM (withFile around) {}).map
    (withEnvironment around.environment)

end PlaybookRunner.Settings
