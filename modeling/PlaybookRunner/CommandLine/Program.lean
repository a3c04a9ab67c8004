import PlaybookRunner.CommandLine.Options
import PlaybookRunner.Machine.Site
import PlaybookRunner.Overrides
import PlaybookRunner.Playbook.Loader
import PlaybookRunner.Report.Chunk
import PlaybookRunner.Report.Console
import PlaybookRunner.Report.Record
import PlaybookRunner.Run.Runner
import PlaybookRunner.Settings.Load

/-!
# The program

From arguments to an exit status: settings are loaded, the playbook is loaded
and run on a site, and the run is reported. A fault in the settings is only a
warning; any other fault decides the exit status.
-/

namespace PlaybookRunner.Program

/-- The name of the program. -/
def name : String := "playrun"

/-- The version of the program. -/
def version : String := "0.1.0"

/-- The exit status of a program that is aborted. -/
def abortedStatus : Nat := 134

/-- How the program is used. -/
def usage : List String :=
  ["Run a playbook of local commands", "", "Usage: playrun [OPTIONS] <PLAYBOOK>", "",
    "  -s, --set <KEY=VALUE>  Set a variable, may be repeated",
    "  -o, --output           Show command parameters and result data",
    "  -d, --debug            Print the error that aborted the run",
    "      --json             Report as length-prefixed JSON events",
    "      --format <FORMAT>  Report format (cli, json or struct)",
    "  -c, --config <CONFIG>  Path to configuration file",
    "      --no-color         Disable colored output",
    "  -v, --verbose...       Verbosity level",
    "  -h, --help             Print help",
    "  -V, --version          Print version"]

/-- What the program writes. -/
inductive Output
  | text (lines : List String)
  | console (lines : List Console.Line)
  | chunks (stream : List Chunk)
  | record (made : RunRecord)

/-- What the program writes, as a text. -/
def Output.toText (setting : Recorder.Setting) : Output → String
  | text lines => String.join (lines.map (· ++ "\n"))
  | console shown =>
    let elapsed := Console.elapsedText (setting.elapsed * 1000).toUInt64.toNat
    String.join (shown.map fun line => line.text setting.start.text elapsed ++ "\n")
  | chunks stream => String.join (stream.map Chunk.framed)
  | record made => made.toJson.pretty ++ "\n"

/-- The end of the program. -/
structure Ending where
  exitCode : Nat
  output : Output := .text []
  /-- What is written about faults. -/
  complaints : List String := []
  site : Site

/-- The texts that paths lead to on a site. -/
def textSource (site : Site) : TextSource := fun path =>
  (site.files.readText site.dir path).mapError FileFault.message

/-- The surroundings of the settings on a site. -/
def surroundings (site : Site) : Settings.Surroundings where
  environment := site.environment
  isThere := site.pathExists
  text := textSource site

/-- The wording of an error and of what caused it. -/
def causes : Error → String
  | .io reason => (Error.io reason).message ++ ": " ++ reason
  | e => e.message

/-- The site after a run of a playbook, with the report in a format. -/
def report (settings : Settings) (setting : Recorder.Setting) (events : List Event) : Output :=
  match settings.format with
  | .console =>
    let reporter : Reporter Console.Line Unit := Console.reporter
      { showOutput := settings.showOutput, debug := settings.debug, color := !settings.noColor }
    .console (reporter.run events ()).1
  | .chunks =>
    let reporter : Reporter Chunk Unit := Chunk.reporter setting.start setting.elapsed
    .chunks (reporter.run events ()).1
  | .record =>
    let reporter : Reporter Unit Recorder := Recorder.reporter setting
    .record (reporter.run events {}).2.record

/-- Runs a playbook with some variables. Module calls without an end exhaust the stack, which
aborts the program. -/
def runBook (site : Site) (settings : Settings) (setting : Recorder.Setting) (vars : Vars)
    (book : Playbook) : Ending :=
  let (root, world) := ({ host := site } : World Site).newTable vars
  let baseDir := Path.join site.dir.path book.baseDir
  let setup : Setup Site :=
    { host := Site.host baseDir, registry := Registry.builtins, root := [.table root] }
  let outcome := Runner.run setup book world
  let output := report settings setting outcome.events
  match outcome.error with
  | none =>
    { exitCode := if outcome.tooDeep then abortedStatus else 0, output
      site := outcome.world.host }
  | some e =>
    let shown := settings.debug && settings.format == .console
    { exitCode := e.exitCode, output, site := outcome.world.host
      complaints := if shown then [] else ["Error: " ++ e.message] }

/-- Loads the playbook of some options and runs it. -/
def runOptions (site : Site) (settings : Settings) (setting : Recorder.Setting)
    (options : Options) : Ending :=
  match Playbook.load (textSource site) options.playbook with
  | .error e =>
    { exitCode := e.exitCode, site
      complaints := ["Error: Failed to load playbook " ++ options.playbook ++ ": " ++ causes e] }
  | .ok book =>
    match Overrides.read options.overrides with
    | .error e =>
      { exitCode := 1, site
        complaints := ["Error: Invalid --set value\n\nCaused by:\n    " ++ e.message] }
    | .ok vars => runBook site settings setting vars book

/-- The settings of some options, and a warning if none could be loaded. -/
def settingsOf (site : Site) (isTerminal : Bool) (options : Options) :
    Settings × List String :=
  let (settings, warnings) :=
    match Settings.load (surroundings site) options.settingsPath with
    | .ok settings => (settings, [])
    | .error fault => ({}, ["Warning: Failed to load config: " ++ fault.fullMessage])
  let settings := options.apply settings
  ({ settings with noColor := settings.noColor || !isTerminal }, warnings)

/-- Ends without a run. -/
def endWithout (site : Site) (ending : Options.Ending) : Ending :=
  match ending with
  | .misuse =>
    { exitCode := ending.exitCode, site
      complaints := ["error: the arguments are not understood\n\nFor more information, try '--help'."] }
  | .help => { exitCode := ending.exitCode, output := .text usage, site }
  | .version => { exitCode := ending.exitCode, output := .text [name ++ " " ++ version], site }

/-- Runs the program with some arguments on a site. -/
def run (site : Site) (isTerminal : Bool) (setting : Recorder.Setting) (args : List String) :
    Ending :=
  match Options.read site.environment args with
  | .error ending => endWithout site ending
  | .ok options =>
    let (settings, warnings) := settingsOf site isTerminal options
    let ending := runOptions site settings setting options
    { ending with complaints := warnings ++ ending.complaints }

end PlaybookRunner.Program
