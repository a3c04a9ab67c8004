import PlaybookRunner.Playbook.Entry
import PlaybookRunner.Playbook.Outline
import PlaybookRunner.Playbook.VarsFile

/-!
# Loading playbooks

Paths in a playbook start from the directory of the file they stand in. An
included file is a list of tasks that takes the place of the entry; files may
include others to a certain depth, so that loading ends on every source.
-/

namespace PlaybookRunner

open Yaml (Data)

/-- How many files may include each other in a row. -/
def inclusionLimit : Nat := 32

namespace Playbook

/-- A file and the directory its paths start from. -/
structure Location where
  path : String
  base : String

/-- The document of a file. -/
def document (path text : String) : Except Error Data :=
  match Data.read? text with
  | some data => .ok data
  | none => .error (.playbook path .malformed)

/-- The text of a file. -/
def textAt (source : TextSource) (path : String) : Except Error String :=
  match source path with
  | .ok text => .ok text
  | .error reason => .error (.playbook path (.unreadable reason))

/-- The entries that an included file lists. -/
def listed (path : String) : Data → Except Error (List Data)
  | .scalar .null => .ok []
  | .sequence entries => .ok entries
  | _ => .error (.playbook path (.rule "an included file must be a list of tasks"))

/-- A task that comes through an inclusion with some variables. -/
def included (vars : Vars) (task : Task) : Task :=
  { task with includeVars := vars.extend task.includeVars }

/-- The tasks that an entry, counted from one, stands for. -/
def entryTasks (enter : String → Except Error (List Task)) (here : Location) (index : Nat)
    (data : Data) : Except Error (List Task) :=
  match Entry.ofData data with
  | .error message =>
    .error (.playbook here.path (.rule ("task " ++ toString index ++ ": " ++ message)))
  | .ok (.task task) => .ok [task]
  | .ok (.inclusion file vars) =>
    (enter (Path.join here.base file)).map fun tasks => tasks.map (included vars)

/-- The tasks that a list of entries stands for, the first having a certain number. -/
def tasksFrom (enter : String → Except Error (List Task)) (here : Location) :
    Nat → List Data → Except Error (List Task)
  | _, [] => .ok []
  | index, data :: rest => do
    let first ← entryTasks enter here index data
    let others ← tasksFrom enter here (index + 1) rest
    return first ++ others

/-- The tasks of an included file, below which some more inclusions may follow. -/
def inclusion (source : TextSource) : Nat → String → Except Error (List Task)
  | 0, path =>
    .error (.playbook path
      (.rule ("includes nested deeper than " ++ toString inclusionLimit)))
  | more + 1, path => do
    let text ← textAt source path
    let entries ← listed path (← document path text)
    tasksFrom (inclusion source more) { path, base := (Path.parent? path).getD "." } 1 entries

/-- The tasks that a list of a play stands for. -/
def tasks (source : TextSource) (here : Location) (entries : List Data) :
    Except Error (List Task) :=
  tasksFrom (inclusion source inclusionLimit) here 1 entries

/-- The variables of a play and of its files, a later file winning. -/
def varsWith (source : TextSource) (here : Location) (vars : Vars) :
    List String → Except Error Vars
  | [] => .ok vars
  | file :: rest => do
    let more ← VarsFile.load source (Path.join here.base file)
    varsWith source here (vars.extend more) rest

/-- The modules of a play. -/
def modules (source : TextSource) (here : Location) :
    Dict (List Data) → Except Error (Dict Module)
  | [] => .ok []
  | (name, entries) :: rest => do
    let tasks ← tasks source here entries
    let others ← modules source here rest
    return (name, { name, tasks }) :: others

/-- The play of an outline. -/
def play (source : TextSource) (here : Location) (outline : PlayOutline) : Except Error Play := do
  let vars ←
    match Entry.varsOf outline.vars with
    | .ok vars => pure vars
    | .error message => throw (.playbook here.path (.rule message))
  let vars ← varsWith source here vars outline.varsFiles
  let ordinary ← tasks source here outline.tasks
  let handlers ← tasks source here outline.handlers
  let modules ← modules source here outline.modules
  return { name := outline.name, tasks := ordinary, handlers, modules, vars }

/-- The plays of a list, the first having a certain number. -/
def playsFrom (source : TextSource) (here : Location) :
    Nat → List Data → Except Error (List Play)
  | _, [] => .ok []
  | index, data :: rest => do
    match PlayOutline.ofData? data with
    | none => throw (.playbook here.path (.badPlay index))
    | some outline =>
      let first ← play source here outline
      let others ← playsFrom source here (index + 1) rest
      return first :: others

/-- The plays that a document lists; a mapping alone is one play. -/
def listedPlays (path : String) : Data → Except Error (List Data)
  | .scalar .null => .ok []
  | .sequence plays => .ok plays
  | .mapping pairs => .ok [.mapping pairs]
  | _ => .error (.playbook path (.rule "a playbook must be a list of plays"))

/-- The playbook of a text. -/
def ofText (source : TextSource) (here : Location) (text : String) : Except Error Playbook := do
  let listed ← listedPlays here.path (← document here.path text)
  let plays ← playsFrom source here 1 listed
  return { plays, baseDir := here.base }

/-- The directory that the paths of a playbook file start from. -/
def baseOf (path : String) : String :=
  match Path.parent? path with
  | some dir => if dir == "" then "." else dir
  | none => "."

/-- Loads the playbook of a file. -/
def load (source : TextSource) (path : String) : Except Error Playbook := do
  ofText source { path, base := baseOf path } (← textAt source path)

/-- Reads a playbook that is not in a file. -/
def read (source : TextSource) (base : Option String) (text : String) : Except Error Playbook :=
  ofText source { path := "<string>", base := base.getD "." } text

end Playbook

end PlaybookRunner
