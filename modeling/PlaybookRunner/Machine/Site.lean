import PlaybookRunner.Command.Mock
import PlaybookRunner.Run.World
import PlaybookRunner.Shell.Run

/-!
# Sites

A site is the place where a run happens: files, a working directory, an
environment, and a log of the calls of the mock command.
-/

namespace PlaybookRunner

/-- A place where a run happens. -/
structure Site where
  files : Files := []
  /-- The working directory. -/
  dir : Place := []
  environment : Dict String := []
  /-- The calls of the mock command, with their tasks. -/
  calls : Array (Task × Vars) := #[]
deriving Inhabited

namespace Site

/-- The directories and files that every machine has. -/
def standardFiles : Files :=
  let directories : List Place :=
    [["bin"], ["boot"], ["dev"], ["etc"], ["home"], ["lib"], ["mnt"], ["opt"], ["proc"], ["root"],
      ["run"], ["sbin"], ["srv"], ["sys"], ["tmp"], ["usr"], ["usr", "bin"], ["usr", "lib"],
      ["usr", "local"], ["usr", "share"], ["var"], ["var", "log"], ["var", "tmp"]]
  let texts : List (Place × String) :=
    [(["etc", "hostname"], "localhost\n"), (["etc", "hosts"], "127.0.0.1\tlocalhost\n"),
      (["etc", "passwd"], "root:x:0:0:root:/root:/bin/sh\n"), (["etc", "group"], "root:x:0:\n")]
  let programs : List (Place × Entry) :=
    (Programs.table.keys ++ ["sh", "dash", "bash"]).flatMap fun name =>
      Programs.directories.map fun dir => (dir ++ [name], Entry.file [] false)
  directories.map (·, Entry.directory) ++
    texts.map (fun (place, text) => (place, Entry.file (Bytes.ofText text) false)) ++
    programs ++ [(["dev", "null"], Entry.sink)]

/-- The environment of every machine. -/
def standardEnvironment : Dict String :=
  [("PATH", "/usr/local/sbin:/usr/local/bin:/usr/sbin:/usr/bin:/sbin:/bin"), ("HOME", "/root")]

/-- A path leads to something. -/
def pathExists (site : Site) (path : String) : Bool :=
  (site.files.lookup site.dir path).toOption.isSome

/-- How a started process ended. -/
def outcomeOf (buffers : Array Bytes) (status : Option Nat) : ProcessOutcome :=
  .finished status (buffers.getD 0 []).text (buffers.getD 1 []).text

/-- Starts words as a process in a directory. -/
def startIn (site : Site) (dir : Place) (words : List String) : ProcessOutcome × Site :=
  match words with
  | [] => (.notStarted FileFault.missing.message, site)
  | name :: args =>
    match Shell.Launch.find site.files dir name with
    | .failed fault => (.notStarted fault.message, site)
    | .script _ false => (.notStarted "Exec format error (os error 8)", site)
    | found =>
      let state : Shell.State :=
        { files := site.files, dir, vars := site.environment, exported := site.environment.keys }
      let work :=
        match found with
        | .environment =>
          Shell.Launch.program (Shell.runWithin Shell.depthLimit) site.environment words
        | found =>
          Shell.Launch.start (Shell.runWithin Shell.depthLimit) site.environment name args found
      let (ending, state) := work.run.run state
      let after := { site with files := state.files }
      match ending with
      | .ok (.inl status) => (outcomeOf state.buffers (some status), after)
      | .ok (.inr _) => (outcomeOf state.buffers none, after)
      | .error _ => (outcomeOf state.buffers none, after)

/-- Runs words as a process in the directory that a path leads to. -/
def runProcess (words : List String) (dir : String) (site : Site) : ProcessOutcome × Site :=
  if words.any fun word => word.toList.any fun c => c.toNat == 0 then
    (.notStarted "nul byte found in provided data", site)
  else
    match site.files.lookup site.dir dir with
    | .error fault => (.notStarted fault.message, site)
    | .ok (place, .directory) => site.startIn place words
    | .ok _ => (.notStarted FileFault.notDirectory.message, site)

/-- Runs the mock command and logs the call. -/
def runMock (task : Task) (_name : String) (params : Vars) (site : Site) :
    Except CommandError TaskResult × Site :=
  (Mock.run params, { site with calls := site.calls.push (task, params) })

/-- A site as the surroundings of a run whose relative names start from a directory. -/
def host (baseDir : String) : Host Site where
  baseDir
  pathExists := pathExists
  runProcess := runProcess
  runExternal := runMock

end Site

end PlaybookRunner
