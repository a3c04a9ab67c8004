import PlaybookRunner.Json.Reader
import PlaybookRunner.Json.Record
import PlaybookRunner.Settings.Basic
import PlaybookRunner.Text.Path
import PlaybookRunner.Toml.Reader
import PlaybookRunner.Yaml.Json

/-!
# Files of settings

A file of settings is a tree in one of three formats, by the end of its name.
All of them have the same two groups; what is not given is as usual, and what
is not known is passed over.
-/

namespace PlaybookRunner

/-- How the parts of a tree are read. -/
structure TreeFormat (τ : Type) where
  /-- The given parts of a record with certain fields. -/
  parts? : List String → τ → Option (Dict τ)
  text? : τ → Option String
  bool? : τ → Option Bool
  /-- A word that makes a choice. -/
  word? : τ → Option String

/-- Trees in JSON. A choice may also be the only key of an object. -/
def Json.treeFormat : TreeFormat Json where
  parts? := Json.parts?
  text? := Json.text?
  bool? := Json.bool?
  word?
    | .string word => some word
    | .object [(word, .null)] => some word
    | _ => none

namespace Toml

/-- There is nothing in a table or an array. -/
def isEmpty : Toml → Bool
  | array items => items.isEmpty
  | table _ fields => fields.isEmpty
  | tables items => items.isEmpty
  | _ => false

/-- Trees in TOML. A choice may also be the only key of a table. -/
def treeFormat : TreeFormat Toml where
  parts? names
    | table _ fields => some fields
    | array items => some (names.zip items)
    | tables items => some (names.zip (items.map (table .header)))
    | _ => none
  text?
    | text s => some s
    | _ => none
  bool?
    | bool b => some b
    | _ => none
  word?
    | text s => some s
    | table _ [(word, inner)] => if inner.isEmpty then some word else none
    | _ => none

end Toml

namespace Yaml.Node

/-- Trees in YAML. A choice may also be the tag of nothing. -/
def treeFormat : TreeFormat Node where
  parts? names
    | .mapping _ pairs => do
      let fields ← pairs.mapM fun (pair : Node × Node) =>
        pair.1.text?.map fun key => (key, pair.2)
      if names.all fun name => (fields.filter fun (key, _) => key == name).length ≤ 1 then
        some fields
      else none
    | .scalar _ isPlain text => if isPlain && text == "" then some [] else none
    | _ => none
  text? := text?
  bool?
    | .scalar _ isPlain text => if isPlain then Literal.boolWord? text else none
    | _ => none
  word?
    | .scalar tag isPlain text =>
      match ownTag? tag with
      | none => some text
      | some word =>
        if isPlain && (text == "" || Literal.isNullWord text) then some word else none
    | _ => none

end Yaml.Node

namespace Settings

variable {τ : Type}

/-- A part that has a value also if it is not given. -/
def part? {α : Type} (read : τ → Option α) (usual : α) (parts : Dict τ) (name : String) :
    Option α :=
  match parts.get? name with
  | some part => read part
  | none => some usual

/-- The settings with those of output in a tree. -/
def output? (f : TreeFormat τ) (s : Settings) (tree : τ) : Option Settings := do
  let parts ← f.parts? ["show_command_output", "debug", "format", "no_color"] tree
  let format? (tree : τ) : Option OutputFormat := (f.word? tree).bind OutputFormat.ofName?
  return { s with
    showOutput := ← part? f.bool? s.showOutput parts "show_command_output"
    debug := ← part? f.bool? s.debug parts "debug"
    format := ← part? format? s.format parts "format"
    noColor := ← part? f.bool? s.noColor parts "no_color" }

/-- The settings with those of the log in a tree. -/
def logging? (f : TreeFormat τ) (s : Settings) (tree : τ) : Option Settings := do
  let parts ← f.parts? ["level", "json"] tree
  return { s with
    logLevel := ← part? f.text? s.logLevel parts "level"
    logJson := ← part? f.bool? s.logJson parts "json" }

/-- The settings of a tree. -/
def ofTree? (f : TreeFormat τ) (tree : τ) : Option Settings := do
  let parts ← f.parts? ["output", "logging"] tree
  let s ← part? (output? f {}) {} parts "output"
  part? (logging? f s) s parts "logging"

/-- The settings of a file of a certain name. -/
def ofText? (path text : String) : Option Settings :=
  match Path.extension? path with
  | some "yml" => (Yaml.Node.read? text).bind (ofTree? Yaml.Node.treeFormat)
  | some "yaml" => (Yaml.Node.read? text).bind (ofTree? Yaml.Node.treeFormat)
  | some "json" => (Json.read? text).bind (ofTree? Json.treeFormat)
  | _ => (Toml.read? text).bind (ofTree? Toml.treeFormat)

end Settings

end PlaybookRunner
