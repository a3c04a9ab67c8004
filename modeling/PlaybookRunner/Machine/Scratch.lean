import PlaybookRunner.Machine.Site

/-!
# Scratch files

A scratch directory and the files in it get names that nothing bears yet, and
are removed when they are no longer needed.
-/

namespace PlaybookRunner.Scratch

/-- The directory that holds scratch directories, and scratch files without one. -/
def base : Place := ["tmp"]

/-- The start of the names of scratch directories. -/
def directoryPrefix : String := "playrun"

/-- A place in a directory that nothing stands at: a number follows the given start. -/
def freshPlace (files : Files) (dir : Place) (start : String) : Place :=
  let place (n : Nat) : Place := dir ++ [start ++ toString n]
  match (List.range (files.length + 1)).find? fun n => (files.at? (place n)).isNone with
  | some n => place n
  | none => place (files.length + 1)

/-- Makes a scratch directory. -/
def makeDirectory (site : Site) : Place × Site :=
  let place := freshPlace site.files base directoryPrefix
  (place, { site with files := site.files.put place .directory })

/-- Makes a file whose name has a given start: in the scratch directory if there
is one, and beside it otherwise. -/
def makeFile (site : Site) (dir : Option Place) (start : String) : Place × Site :=
  let place := freshPlace site.files (dir.getD base) start
  (place, { site with files := site.files.put place (.file [] false) })

/-- Removes a scratch file, or a scratch directory with all that is in it. -/
def remove (site : Site) (place : Place) : Site := { site with files := site.files.remove place }

end PlaybookRunner.Scratch
