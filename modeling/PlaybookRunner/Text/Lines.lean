import PlaybookRunner.Text.Search

/-!
# Lines

A text is a list of lines that line feeds end. A carriage return before a line
feed belongs to the line's end; an empty rest after the last line feed is no line.
-/

namespace PlaybookRunner.Text

/-- A line without the carriage return at its end. -/
def dropReturn (line : List Char) : List Char :=
  if line.getLast? == some '\r' then line.dropLast else line

/-- The lines of a text. -/
def lines (s : String) : List String :=
  match (splitAtChar '\n' s.toList).reverse with
  | [] => []
  | last :: before =>
    ((before.reverse.map dropReturn) ++ (if last.isEmpty then [] else [last])).map String.ofList

end PlaybookRunner.Text
