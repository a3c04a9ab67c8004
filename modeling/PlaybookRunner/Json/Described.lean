import PlaybookRunner.Json.Printer
import PlaybookRunner.Text.Quoted

/-!
# Trees in messages

A message shows a tree with the kind of each part before it, or only what the
tree is.
-/

namespace PlaybookRunner.Json

mutual

/-- A canonical tree with the kinds of its parts. -/
def described : Json → String
  | null => "Null"
  | bool b => if b then "Bool(true)" else "Bool(false)"
  | int n => "Number(" ++ toString n ++ ")"
  | float x => "Number(" ++ floatText x ++ ")"
  | string s => "String(" ++ Text.quoted s ++ ")"
  | array items => "Array [" ++ ", ".intercalate (describedItems items) ++ "]"
  | object fields => "Object \x7b" ++ ", ".intercalate (describedFields fields) ++ "\x7d"

/-- Items with the kinds of their parts. -/
def describedItems : List Json → List String
  | [] => []
  | item :: rest => described item :: describedItems rest

/-- Fields with the kinds of their parts. -/
def describedFields : List (String × Json) → List String
  | [] => []
  | (key, value) :: rest => (Text.quoted key ++ ": " ++ described value) :: describedFields rest

end

/-- A double as messages name it, with a point also if it is whole. -/
def briefFloat (x : Float) : String :=
  let text := Decimal.plainText x
  let shown := if x.isFinite && !text.toList.contains '.' then text ++ ".0" else text
  s!"floating point `{shown}`"

/-- What a tree is: its kind, and its content if it is a scalar. -/
def brief : Json → String
  | null => "null"
  | bool b => if b then "boolean `true`" else "boolean `false`"
  | int n => s!"integer `{n}`"
  | float x => briefFloat x
  | string s => "string " ++ Text.quoted s
  | array _ => "sequence"
  | object _ => "map"

end PlaybookRunner.Json
