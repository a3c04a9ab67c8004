import PlaybookRunner.Yaml.Data

/-!
# Outlines of plays

An outline is a play as it is written: its parts have their places, but the
entries of its lists are not looked into.
-/

namespace PlaybookRunner

open Yaml (Data)

namespace Yaml.Data

mutual

/-- There is no tag anywhere in the data. -/
def isPlain : Data → Bool
  | scalar _ => true
  | sequence items => itemsPlain items
  | mapping pairs => pairsPlain pairs
  | tagged .. => false

/-- There is no tag in the items. -/
def itemsPlain : List Data → Bool
  | [] => true
  | item :: rest => isPlain item && itemsPlain rest

/-- There is no tag in the pairs. -/
def pairsPlain : List (Data × Data) → Bool
  | [] => true
  | (key, value) :: rest => isPlain key && isPlain value && pairsPlain rest

end

/-- The items of a list; nothing is an empty list. -/
def items? (data : Data) : Option (List Data) :=
  match data.untagged with
  | sequence items => some items
  | scalar .null => some []
  | _ => none

/-- The pairs of a mapping whose keys are texts; nothing is an empty mapping. -/
def fields? (data : Data) : Option (List (String × Data)) :=
  match data.untagged with
  | mapping pairs => pairs.mapM fun (key, value) => key.text?.map fun key => (key, value)
  | scalar .null => some []
  | _ => none

end Yaml.Data

/-- A play as it is written. -/
structure PlayOutline where
  name : String := ""
  vars : Option Data := none
  varsFiles : List String := []
  tasks : List Data := []
  handlers : List Data := []
  modules : Dict (List Data) := []

namespace PlayOutline

/-- What stands under a key that occurs at most once. -/
def only? (fields : List (String × Data)) (key : String) : Option (Option Data) :=
  match fields.filter fun (k, _) => k == key with
  | [] => some none
  | [(_, data)] => some (some data)
  | _ => none

/-- The text that may stand under a key. -/
def name? : Option Data → Option String
  | none => some ""
  | some (.scalar .null) => some ""
  | some data => data.text?

/-- What stands under a key, nothing counting as absence. -/
def present : Option Data → Option Data
  | some (.scalar .null) => none
  | data => data

/-- The list that may stand under a key. -/
def list? : Option Data → Option (List Data)
  | none => some []
  | some data => data.items?

/-- The list of texts that may stand under a key. -/
def texts? (data : Option Data) : Option (List String) :=
  (list? data).bind fun items => items.mapM Data.text?

/-- The name of a key of a block. The first key may go by its number. -/
def blockKey? : Data → Option String
  | .scalar (.string key) => some key
  | .scalar (.int n) => if n < 0 then none else if n == 0 then some "tasks" else some ""
  | _ => none

/-- The list of tasks of a block. -/
def blockTasks? (pairs : List (Data × Data)) : Option (List Data) := do
  let fields ← pairs.mapM fun (key, value) => (blockKey? key).map fun key => (key, value)
  match ← only? fields "tasks" with
  | none => return []
  | some (.sequence items) => return items
  | some _ => none

/-- The tasks of a module, given as a list or as a block. -/
def moduleTasks? (data : Data) : Option (List Data) :=
  if data.isPlain then
    match data with
    | .sequence items => some items
    | .mapping pairs => blockTasks? pairs
    | _ => none
  else none

/-- The modules that may stand under a key. -/
def modules? : Option Data → Option (Dict (List Data))
  | none => some []
  | some data => do
    let fields ← data.fields?
    let modules ← fields.mapM fun (name, body) => (moduleTasks? body).map fun tasks => (name, tasks)
    return Dict.ofPairs modules

/-- The outline of a play, if the data has the shape of one. -/
def ofData? (data : Data) : Option PlayOutline := do
  let fields ← data.fields?
  let name ← name? (← only? fields "name")
  let vars ← only? fields "vars"
  let varsFiles ← texts? (← only? fields "vars_files")
  let tasks ← list? (← only? fields "tasks")
  let handlers ← list? (← only? fields "handlers")
  let modules ← modules? (← only? fields "modules")
  return { name, vars := present vars, varsFiles, tasks, handlers, modules }

end PlayOutline

end PlaybookRunner
