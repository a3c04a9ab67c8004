import PlaybookRunner.Decimal.Layout
import PlaybookRunner.Json.Basic
import PlaybookRunner.Text.Quoted

/-!
# Writing JSON

Two forms: compact, without any space, and indented by two spaces. Inside
strings only the quote, the backslash and the control characters below the
space are escaped. A number that is not finite is written as `null`.
-/

namespace PlaybookRunner.Json

/-- A character inside a string. -/
def escaped (c : Char) : List Char :=
  if c == '"' then ['\\', '"']
  else if c == '\\' then ['\\', '\\']
  else if c.toNat == 8 then ['\\', 'b']
  else if c.toNat == 9 then ['\\', 't']
  else if c.toNat == 10 then ['\\', 'n']
  else if c.toNat == 12 then ['\\', 'f']
  else if c.toNat == 13 then ['\\', 'r']
  else if c.toNat < 0x20 then
    ['\\', 'u', '0', '0'] ++ (if c.toNat < 16 then ['0'] else []) ++ Text.hexDigits c.toNat
  else [c]

/-- A string between quotes. -/
def stringChars (s : String) : List Char := '"' :: s.toList.flatMap escaped ++ ['"']

/-- A double, `null` when it is not finite. -/
def floatText (x : Float) : String :=
  if x.isFinite then Decimal.jsonLayout.finite x else "null"

mutual

/-- The compact form of a tree. -/
def chars : Json → List Char
  | null => "null".toList
  | bool b => (if b then "true" else "false").toList
  | int n => (toString n).toList
  | float x => (floatText x).toList
  | string s => stringChars s
  | array items => '[' :: itemChars items ++ [']']
  | object fields => '{' :: fieldChars fields ++ ['}']

/-- The items of an array between commas. -/
def itemChars : List Json → List Char
  | [] => []
  | [item] => chars item
  | item :: rest => chars item ++ ',' :: itemChars rest

/-- The fields of an object between commas. -/
def fieldChars : List (String × Json) → List Char
  | [] => []
  | [(key, value)] => stringChars key ++ ':' :: chars value
  | (key, value) :: rest => stringChars key ++ ':' :: chars value ++ ',' :: fieldChars rest

end

/-- The compact text of a tree. -/
def compact (j : Json) : String := String.ofList j.chars

/-- A line break followed by an indentation of so many levels. -/
def newline (level : Nat) : List Char := '\n' :: List.replicate (2 * level) ' '

mutual

/-- The indented form of a tree at a level of indentation. -/
def prettyChars (level : Nat) : Json → List Char
  | array [] => ['[', ']']
  | array items => '[' :: prettyItems (level + 1) items ++ newline level ++ [']']
  | object [] => ['{', '}']
  | object fields =>
    '{' :: prettyFields (level + 1) fields ++ newline level ++ ['}']
  | null => chars null
  | bool b => chars (bool b)
  | int n => chars (int n)
  | float x => chars (float x)
  | string s => chars (string s)

/-- The items of an array, each on lines of its own. -/
def prettyItems (level : Nat) : List Json → List Char
  | [] => []
  | [item] => newline level ++ prettyChars level item
  | item :: rest => newline level ++ prettyChars level item ++ ',' :: prettyItems level rest

/-- The fields of an object, each on lines of its own. -/
def prettyFields (level : Nat) : List (String × Json) → List Char
  | [] => []
  | [(key, value)] => newline level ++ stringChars key ++ ':' :: ' ' :: prettyChars level value
  | (key, value) :: rest =>
    newline level ++ stringChars key ++ ':' :: ' ' :: prettyChars level value ++
      ',' :: prettyFields level rest

end

/-- The indented text of a tree. -/
def pretty (j : Json) : String := String.ofList (j.prettyChars 0)

end PlaybookRunner.Json
