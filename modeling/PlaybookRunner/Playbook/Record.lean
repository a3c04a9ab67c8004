import PlaybookRunner.Task
import PlaybookRunner.Value.Json

/-!
# Playbooks as JSON

A playbook is written as an object with all its fields in order. It is read
from objects in which some fields may be absent and others unknown, or from
arrays of the fields in their order.
-/

namespace PlaybookRunner

namespace Task

/-- The fields of a task. -/
def fields : List String :=
  ["name", "command", "args", "vars", "include_vars", "when", "items", "notify", "register",
    "future", "async"]

/-- The tree of a task. -/
def toJson (t : Task) : Json :=
  let maybe (text : Option String) : Json := text.elim .null .string
  .object
    [("name", .string t.name), ("command", .string t.command), ("args", .string t.args),
      ("vars", Vars.toJson t.vars), ("include_vars", Vars.toJson t.includeVars),
      ("when", maybe t.condition),
      ("items", t.items.elim .null fun items => .array (Value.itemsToRecord items)),
      ("notify", .array (t.notify.map .string)), ("register", maybe t.register),
      ("future", maybe t.future), ("async", .bool t.isAsync)]

/-- The task of a tree. -/
def ofJson? (j : Json) : Option Task := do
  let parts ← j.parts? fields
  return {
    name := ← Json.required? Json.text? parts "name"
    command := ← Json.required? Json.text? parts "command"
    args := ← Json.optional? Json.text? "" parts "args"
    vars := ← Json.optional? Vars.ofJson? [] parts "vars"
    includeVars := ← Json.optional? Vars.ofJson? [] parts "include_vars"
    condition := ← Json.optional? (Json.maybe? Json.text?) none parts "when"
    items := ← Json.optional? (Json.maybe? (Json.list? fun j => some (Value.decode j))) none
      parts "items"
    notify := ← Json.optional? (Json.list? Json.text?) [] parts "notify"
    register := ← Json.optional? (Json.maybe? Json.text?) none parts "register"
    future := ← Json.optional? (Json.maybe? Json.text?) none parts "future"
    isAsync := ← Json.optional? Json.bool? false parts "async" }

end Task

namespace Module

/-- The tree of a module. -/
def toJson (m : Module) : Json :=
  .object [("name", .string m.name), ("tasks", .array (m.tasks.map Task.toJson))]

/-- The module of a tree. -/
def ofJson? (j : Json) : Option Module := do
  let parts ← j.parts? ["name", "tasks"]
  return {
    name := ← Json.required? Json.text? parts "name"
    tasks := ← Json.optional? (Json.list? Task.ofJson?) [] parts "tasks" }

end Module

namespace Play

/-- The tree of a play. -/
def toJson (p : Play) : Json :=
  .object
    [("name", .string p.name), ("tasks", .array (p.tasks.map Task.toJson)),
      ("handlers", .array (p.handlers.map Task.toJson)),
      ("modules", .object (Dict.mapValues Module.toJson p.modules)),
      ("vars", Vars.toJson p.vars)]

/-- The play of a tree. -/
def ofJson? (j : Json) : Option Play := do
  let parts ← j.parts? ["name", "tasks", "handlers", "modules", "vars"]
  return {
    name := ← Json.required? Json.text? parts "name"
    tasks := ← Json.optional? (Json.list? Task.ofJson?) [] parts "tasks"
    handlers := ← Json.optional? (Json.list? Task.ofJson?) [] parts "handlers"
    modules := ← Json.optional? (Json.dict? Module.ofJson?) [] parts "modules"
    vars := ← Json.optional? Vars.ofJson? [] parts "vars" }

end Play

namespace Playbook

/-- The tree of a playbook. -/
def toJson (b : Playbook) : Json :=
  .object [("plays", .array (b.plays.map Play.toJson)), ("base_dir", .string b.baseDir)]

/-- The playbook of a tree. -/
def ofJson? (j : Json) : Option Playbook := do
  let parts ← j.parts? ["plays", "base_dir"]
  return {
    plays := ← Json.optional? (Json.list? Play.ofJson?) [] parts "plays"
    baseDir := ← Json.optional? Json.text? "" parts "base_dir" }

end Playbook

end PlaybookRunner
