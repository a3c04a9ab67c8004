import PlaybookRunner.Dict

/-!
# TOML documents

A document is built key by key. How a table came into being decides whether it
may still grow: one under its own header takes no dotted keys from elsewhere,
one that dotted keys made gets no header, and one in braces is complete.
-/

namespace PlaybookRunner

/-- How a table came into being. -/
inductive TableOrigin
  /-- A header of its own. -/
  | header
  /-- The header of a table inside it. -/
  | implied
  /-- A dotted key. -/
  | dotted
  /-- Braces. -/
  | braces
deriving DecidableEq, Repr

/-- A value of a document. -/
inductive Toml
  | text (s : String)
  | int (n : Int)
  | float (x : Float)
  | bool (b : Bool)
  /-- A date, a time, or both, as it is written. -/
  | moment (s : String)
  | array (items : List Toml)
  | table (origin : TableOrigin) (fields : List (String × Toml))
  /-- The tables of the headers in double brackets. -/
  | tables (items : List (List (String × Toml)))
deriving Inhabited

namespace Toml

/-- The fields of a table. -/
abbrev Fields := Dict Toml

/-- Changes the table at the end of a path, which is told whether dotted keys
made it. Tables that are missing on the way are made. -/
def within {α : Type} (byKey : Bool) (change : Bool → Fields → Option (α × Fields)) :
    List String → Bool → Fields → Option (α × Fields)
  | [], isDotted, fields => change isDotted fields
  | key :: rest, _, fields =>
    match fields.get? key with
    | none => do
      let (x, inner) ← within byKey change rest byKey []
      return (x, fields.put key (table (if byKey then .dotted else .implied) inner))
    | some (table origin inner) =>
      if origin = .braces ∨ (byKey ∧ origin = .header) then none
      else do
        let (x, inner) ← within byKey change rest (origin = .dotted) inner
        return (x, fields.put key (table origin inner))
    | some (tables items) =>
      match items.getLast? with
      | none => none
      | some last => do
        let (x, last) ← within byKey change rest false last
        return (x, fields.put key (tables (items.dropLast ++ [last])))
    | some _ => none

/-- Binds a dotted key in a table. -/
def bind (path : List String) (key : String) (value : Toml) (fields : Fields) : Option Fields :=
  (within true (fun isDotted fields =>
    if isDotted == path.isEmpty || fields.has key then none
    else some ((), fields.put key value)) path false fields).map Prod.snd

/-- A document that is being built: all but the table under the last header. -/
structure Draft where
  root : Fields := []
  /-- The path of the last header. -/
  path : List String := []
  /-- The last header stood in double brackets. -/
  isItem : Bool := false
  /-- The fields under the last header. -/
  current : Fields := []

namespace Draft

/-- Puts the table under the last header in its place. -/
def settle (d : Draft) : Option Fields :=
  match d.path.getLast? with
  | none => some d.current
  | some key =>
    (within false (fun _ fields =>
      if d.isItem then
        match fields.get? key with
        | some (tables items) => some ((), fields.put key (tables (items ++ [d.current])))
        | _ => none
      else if fields.has key then none
      else some ((), fields.put key (table .header d.current)))
      d.path.dropLast false d.root).map Prod.snd

/-- Goes on to a header. -/
def header (path : List String) (d : Draft) : Option Draft := do
  let root ← d.settle
  let key ← path.getLast?
  let (current, root) ← within false (fun _ fields =>
    match fields.get? key with
    | none => some ([], fields)
    | some (table .implied inner) => some (inner, fields.filter fun (k, _) => k != key)
    | some _ => none) path.dropLast false root
  return { root, path, current }

/-- Goes on to a header in double brackets. -/
def itemHeader (path : List String) (d : Draft) : Option Draft := do
  let root ← d.settle
  let key ← path.getLast?
  let (_, root) ← within false (fun _ fields =>
    match fields.get? key with
    | none => some ((), fields.put key (tables []))
    | some (tables _) => some ((), fields)
    | some _ => none) path.dropLast false root
  return { root, path, isItem := true }

/-- Binds a dotted key under the last header. -/
def bind (path : List String) (value : Toml) (d : Draft) : Option Draft := do
  let key ← path.getLast?
  let current ← Toml.bind path.dropLast key value d.current
  return { d with current }

end Draft

end Toml

end PlaybookRunner
