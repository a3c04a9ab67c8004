import PlaybookRunner.Dict
import PlaybookRunner.Text.Case

/-!
# Settings

The settings of a run: how it is reported and what is logged. Settings from
several places are laid over each other, and the environment comes last.
-/

namespace PlaybookRunner

/-- How a run is reported. -/
inductive OutputFormat
  /-- Lines for people. -/
  | console
  /-- Events with their lengths. -/
  | chunks
  /-- One record at the end. -/
  | record
deriving DecidableEq, Repr, Inhabited

namespace OutputFormat

/-- The name of a format. -/
def name : OutputFormat → String
  | console => "cli"
  | chunks => "json"
  | record => "struct"

/-- The format of a name. -/
def ofName? (name : String) : Option OutputFormat :=
  if name = "cli" then some console
  else if name = "json" then some chunks
  else if name = "struct" then some record
  else none

theorem ofName?_name (f : OutputFormat) : ofName? f.name = some f := by
  cases f <;> rfl

/-- The format of a name in any case. -/
def read (text : String) : Except String OutputFormat :=
  match ofName? (Text.lower text) with
  | some format => .ok format
  | none =>
    .error ("unknown output format '" ++ Text.lower text ++ "' (expected cli, json or struct)")

end OutputFormat

/-- The settings of a run. -/
structure Settings where
  /-- Show the parameters of every task and all the data of its result. -/
  showOutput : Bool := false
  /-- Print the error that ended a run. -/
  debug : Bool := false
  format : OutputFormat := .console
  noColor : Bool := false
  /-- What is logged at least. -/
  logLevel : String := "warn"
  logJson : Bool := false
deriving DecidableEq, Repr, Inhabited

namespace Settings

/-- Lays other settings over some: a switch that is on stays on, and a choice
gives way to another that is not the usual one. -/
def overlaid (base other : Settings) : Settings :=
  let usual : Settings := {}
  { showOutput := base.showOutput || other.showOutput
    debug := base.debug || other.debug
    format := if other.format = usual.format then base.format else other.format
    noColor := base.noColor || other.noColor
    logLevel := if other.logLevel = usual.logLevel then base.logLevel else other.logLevel
    logJson := base.logJson || other.logJson }

/-- The switch that a word of the environment stands for. -/
def switch? (word : String) : Option Bool :=
  let word := Text.lower word
  if ["1", "true", "yes", "on"].contains word then some true
  else if ["0", "false", "no", "off", ""].contains word then some false
  else none

/-- The settings with what the environment demands. -/
def withEnvironment (environment : Dict String) (s : Settings) : Settings :=
  let switch (name : String) (usual : Bool) : Bool :=
    ((environment.get? name).bind switch?).getD usual
  { showOutput := switch "PLAYRUN_SHOW_OUTPUT" s.showOutput
    debug := switch "PLAYRUN_DEBUG" s.debug
    format :=
      ((environment.get? "PLAYRUN_FORMAT").bind fun text =>
        (OutputFormat.read text).toOption).getD s.format
    noColor := environment.has "NO_COLOR" || environment.has "PLAYRUN_NO_COLOR" || s.noColor
    logLevel := (environment.get? "PLAYRUN_LOG_LEVEL").getD s.logLevel
    logJson := switch "PLAYRUN_LOG_JSON" s.logJson }

end Settings

end PlaybookRunner
