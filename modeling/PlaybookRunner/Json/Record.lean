import PlaybookRunner.Json.Basic

/-!
# Records in JSON

A record is an object in which a declared field occurs at most once, or an
array of the first fields in their order. Fields that are not declared are
passed over.
-/

namespace PlaybookRunner.Json

/-- No declared key occurs twice. -/
def keysOnce (names : List String) : List (String × Json) → Bool
  | [] => true
  | (key, _) :: rest =>
    !(names.contains key && rest.any fun (k, _) => k == key) && keysOnce names rest

/-- The given parts of a record with certain fields. -/
def parts? (names : List String) : Json → Option (Dict Json)
  | object fields => if keysOnce names fields then some fields else none
  | array items => if items.length ≤ names.length then some (names.zip items) else none
  | _ => none

/-- A part that has to be given. -/
def required? {α : Type} (read : Json → Option α) (parts : Dict Json) (name : String) :
    Option α :=
  (parts.get? name).bind read

/-- A part that has a value also if it is not given. -/
def optional? {α : Type} (read : Json → Option α) (fallback : α) (parts : Dict Json)
    (name : String) : Option α :=
  match parts.get? name with
  | some part => read part
  | none => some fallback

/-- A text. -/
def text? : Json → Option String
  | string s => some s
  | _ => none

/-- A truth value. -/
def bool? : Json → Option Bool
  | bool b => some b
  | _ => none

/-- A list. -/
def list? {α : Type} (read : Json → Option α) : Json → Option (List α)
  | array items => items.mapM read
  | _ => none

/-- Something or nothing. -/
def maybe? {α : Type} (read : Json → Option α) : Json → Option (Option α)
  | null => some none
  | other => (read other).map some

/-- A dictionary, a later pair winning. -/
def dict? {α : Type} (read : Json → Option α) : Json → Option (Dict α)
  | object fields =>
    (fields.mapM fun (field : String × Json) =>
      (read field.2).map fun value => (field.1, value)).map Dict.ofPairs
  | _ => none

end PlaybookRunner.Json
