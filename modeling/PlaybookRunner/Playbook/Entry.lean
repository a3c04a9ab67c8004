import PlaybookRunner.Playbook.Flag
import PlaybookRunner.Task

/-!
# Entries of a list of tasks

A task is a mapping. Reserved keys configure it, and the one key besides them
names the command; a text under it holds arguments as they are, a mapping
structured ones. An entry with `include` stands for the tasks of a file.
-/

namespace PlaybookRunner

open Yaml (Data)

/-- An entry of a list of tasks. -/
inductive Playbook.Entry
  | task (task : Task)
  /-- The tasks of a file, with variables that precede others in them. -/
  | inclusion (file : String) (vars : Vars)

namespace Playbook.Entry

/-- The keys that do not name a command. -/
def reservedKeys : List String :=
  ["name", "when", "with_items", "items", "notify", "register", "future", "async", "vars",
    "include"]

/-- The variables that may stand under a key. -/
def varsOf : Option Data → Except String Vars
  | none => .ok []
  | some (.scalar .null) => .ok []
  | some (.mapping pairs) => .ok (Data.vars pairs)
  | some other => .error ("vars must be a mapping, found " ++ other.kind)

/-- The text that may stand under a key. -/
def textOf (key : String) : Option Data → Except String (Option String)
  | none => .ok none
  | some (.scalar .null) => .ok none
  | some (.sequence items) =>
    .error ("'" ++ key ++ "' must be a scalar, found " ++ (Data.sequence items).kind)
  | some (.mapping pairs) =>
    .error ("'" ++ key ++ "' must be a scalar, found " ++ (Data.mapping pairs).kind)
  | some other => .ok (some other.scalarText)

/-- One text of a list of texts. -/
def listedText (key : String) : Data → Except String String
  | .sequence _ => .error ("'" ++ key ++ "' entries must be scalars")
  | .mapping _ => .error ("'" ++ key ++ "' entries must be scalars")
  | other => .ok other.scalarText

/-- The texts that may stand under a key, one alone or several in a list. -/
def textsOf (key : String) : Option Data → Except String (List String)
  | none => .ok []
  | some (.scalar .null) => .ok []
  | some (.sequence items) => items.mapM (listedText key)
  | some (.mapping _) => .error ("'" ++ key ++ "' must be a string or a list")
  | some other => .ok [other.scalarText]

/-- The items that may stand under a key, one alone or several in a list. -/
def itemsOf : Option Data → Option (List Value)
  | none => none
  | some data =>
    match data.toValue with
    | .list items => some items
    | .nil => none
    | other => some [other]

/-- The commands that a mapping names, with what stands under them. -/
def commands : List (Data × Data) → List (String × Data)
  | [] => []
  | (.scalar (.string key), body) :: rest =>
    if reservedKeys.contains key then commands rest else (key, body) :: commands rest
  | _ :: rest => commands rest

/-- The only command of a mapping. -/
def command (pairs : List (Data × Data)) : Except String (String × Data) :=
  match commands pairs with
  | [] => .error "task has no command"
  | [found] => .ok found
  | (first, _) :: (second, _) :: _ =>
    .error ("task names more than one command: '" ++ first ++ "' and '" ++ second ++ "'")

/-- Adds what stands under the command. -/
def addBody (task : Task) : Data → Except String Task
  | .scalar .null => .ok task
  | .mapping pairs => .ok { task with vars := task.vars.extend (Data.vars pairs) }
  | .sequence _ =>
    .error ("arguments of '" ++ task.command ++ "' must be a string or a mapping")
  | other => .ok { task with args := other.scalarText }

/-- The flag that may stand under a key. -/
def flagOf : Option Data → Except String Bool
  | none => .ok false
  | some data => Flag.ofData data

/-- The task of a mapping. -/
def taskOf (vars : Vars) (pairs : List (Data × Data)) : Except String Task := do
  let (command, body) ← command pairs
  let name ← textOf "name" (Data.field? pairs "name")
  let name := match name with
    | none => command
    | some name => if name == "" then command else name
  let task ← addBody { name, command, vars } body
  let condition ← textOf "when" (Data.field? pairs "when")
  let items := itemsOf (Data.field? pairs "with_items" <|> Data.field? pairs "items")
  let notify ← textsOf "notify" (Data.field? pairs "notify")
  let register ← textOf "register" (Data.field? pairs "register")
  let future ← textOf "future" (Data.field? pairs "future")
  let isAsync ← flagOf (Data.field? pairs "async")
  return { task with condition, items, notify, register, future, isAsync }

/-- The entry of a mapping. -/
def ofPairs (pairs : List (Data × Data)) : Except String Entry := do
  let vars ← varsOf (Data.field? pairs "vars")
  match Data.field? pairs "include" with
  | some file =>
    match ← textOf "include" (some file) with
    | some file => return inclusion file vars
    | none => throw "'include' needs a file name"
  | none => return task (← taskOf vars pairs)

/-- The entry that data stands for. -/
def ofData : Data → Except String Entry
  | .mapping pairs => ofPairs pairs
  | other => .error ("a task must be a mapping, found " ++ other.kind)

end Playbook.Entry

end PlaybookRunner
