import PlaybookRunner.CommandLine.Program

/-!
# The command line

The program works on a site of its own: the working directory, the directories
of the files that the arguments name, and the places of settings are read into
it, and what a run changed there is written back.
-/

open PlaybookRunner

namespace PlaybookRunner.CommandLine

/-- How deep directories are read. -/
def treeDepth : Nat := 32

/-- The largest file that is read, in bytes. -/
def sizeLimit : Nat := 16 * 1024 * 1024

/-- The names of the environment that a run may depend on. -/
def environmentNames : List String :=
  ["PATH", "HOME", "USER", "LANG", "NO_COLOR", "PLAYRUN_CONFIG", "PLAYRUN_SHOW_OUTPUT",
    "PLAYRUN_DEBUG", "PLAYRUN_FORMAT", "PLAYRUN_NO_COLOR", "PLAYRUN_LOG_LEVEL",
    "PLAYRUN_LOG_JSON"]

/-- The environment of the program. -/
def readEnvironment : IO (Dict String) := do
  let mut found : Dict String := []
  for name in environmentNames do
    if let some value ← IO.getEnv name then found := found.put name value
  return found

/-- A file starts as a script does. -/
def isScript (content : Bytes) : Bool := "#!".toUTF8.toList.isPrefixOf content

/-- Adds a file, if it can be read. -/
def readFile (place : Place) (files : Files) : IO Files := do
  try
    let content := (← IO.FS.readBinFile place.path).toList
    return (files.makeDirectories place.dropLast).put place (.file content (isScript content))
  catch _ => return files

/-- Adds what stands below a directory. -/
def readTree : Nat → Place → Files → IO Files
  | 0, _, files => return files
  | depth + 1, place, files => do
    let mut files := files.makeDirectories place
    for entry in ← (← IO.FS.realPath place.path).readDir do
      let inner := place ++ [entry.fileName]
      try
        let about ← entry.path.metadata
        match about.type with
        | .dir => files ← readTree depth inner files
        | .file =>
          if about.byteSize.toNat ≤ sizeLimit then files ← readFile inner files
        | _ => pure ()
      catch _ => pure ()
    return files

/-- The directories of the files that arguments name from the root. -/
def namedDirectories (args : List String) : List Place :=
  (args.filter Path.isAbsolute).filterMap fun arg => (Path.parent? arg).map Files.segments

/-- The site of the program. -/
def readSite (args : List String) : IO Site := do
  let environment ← readEnvironment
  let dir : Place := Files.segments (← IO.currentDir).toString
  let mut files := Site.standardFiles
  for place in dir :: namedDirectories args do
    if !place.isEmpty then
      try files ← readTree treeDepth place files catch _ => pure ()
  for path in Settings.paths environment none do
    files ← readFile (Files.segments (Path.join (dir.path) path)) files
  return { files, dir, environment }

/-- Writes the files that a run changed. -/
def writeChanges (before after : Files) : IO Unit := do
  for (place, entry) in after do
    match entry, before.at? place with
    | .directory, none => IO.FS.createDirAll place.path
    | .file content _, some (.file old _) =>
      if content != old then IO.FS.writeBinFile place.path ⟨content.toArray⟩
    | .file content _, _ => IO.FS.writeBinFile place.path ⟨content.toArray⟩
    | _, _ => pure ()

/-- The time that a fresh file bears. -/
def now : IO Moment := do
  let (_, path) ← IO.FS.createTempFile
  let modified := (← path.metadata).modified
  IO.FS.removeFile path
  return { seconds := modified.sec, nanos := modified.nsec.toNat }

/-- The name of the machine. -/
def readHostname : IO String := do
  try return Text.trimmed (← IO.FS.readFile "/etc/hostname") catch _ => return ""

end PlaybookRunner.CommandLine

/-- Runs the program. -/
def main (args : List String) : IO UInt32 := do
  let site ← CommandLine.readSite args
  let setting : Recorder.Setting :=
    { hostname := ← CommandLine.readHostname, start := ← CommandLine.now }
  let output ← IO.getStdout
  let ending := Program.run site (← output.isTty) setting args
  output.putStr (ending.output.toText setting)
  for complaint in ending.complaints do
    IO.eprintln complaint
  CommandLine.writeChanges site.files ending.site.files
  return UInt32.ofNat ending.exitCode
