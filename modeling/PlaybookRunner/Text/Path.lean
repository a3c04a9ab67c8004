/-!
# Paths

Paths are texts with slashes between their parts. A slash at the end and a dot
behind a slash say nothing, but they stay in the text.
-/

namespace PlaybookRunner.Path

/-- A path from the root. -/
def isAbsolute (path : String) : Bool := path.toList.head? == some '/'

/-- A path below a directory; an absolute path stands for itself. -/
def join (dir path : String) : String :=
  if isAbsolute path then path
  else
    match dir.toList.getLast? with
    | none => path
    | some c => if c == '/' then dir ++ path else dir ++ "/" ++ path

/-- A reversed path without the slashes and dots at its end. -/
def trimEnd : List Char → List Char
  | [] => []
  | '/' :: rest => if rest.isEmpty then ['/'] else trimEnd rest
  | '.' :: '/' :: rest => if rest.isEmpty then ['/'] else trimEnd rest
  | cs => cs

/-- What contains the last name of a path. -/
def parent? (path : String) : Option String :=
  match trimEnd path.toList.reverse with
  | [] => none
  | ['/'] => none
  | cs => some (String.ofList (trimEnd (cs.dropWhile fun c => c != '/')).reverse)

/-- The last name of a path. -/
def name? (path : String) : Option String :=
  match (trimEnd path.toList.reverse).takeWhile fun c => c != '/' with
  | [] => none
  | ['.'] => none
  | ['.', '.'] => none
  | cs => some (String.ofList cs.reverse)

/-- What follows the last dot of the last name, unless the name starts there. -/
def extension? (path : String) : Option String :=
  match name? path with
  | none => none
  | some name =>
    let after := name.toList.reverse.takeWhile fun c => c != '.'
    if after.length + 1 < name.toList.length then some (String.ofList after.reverse) else none

end PlaybookRunner.Path
