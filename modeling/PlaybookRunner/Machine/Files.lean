import PlaybookRunner.Text.Bytes
import PlaybookRunner.Text.Search

/-!
# Files

A tree of files is a list of absolute places with what stands there. A place is
the list of names from the root; the parent of every place is a directory.
-/

namespace PlaybookRunner

/-- The names on the way from the root. -/
abbrev Place := List String

/-- What stands at a place. -/
inductive Entry
  | directory
  | file (content : Bytes) (executable : Bool)
  /-- Takes everything and gives nothing. -/
  | sink
deriving Inhabited

/-- Why a file cannot be used. -/
inductive FileFault
  | missing
  | notDirectory
  | isDirectory
  | denied
  | occupied
  | notEmpty
  | notText
deriving DecidableEq, Repr, Inhabited

/-- The words for a fault. -/
def FileFault.words : FileFault → String
  | missing => "No such file or directory"
  | notDirectory => "Not a directory"
  | isDirectory => "Is a directory"
  | denied => "Permission denied"
  | occupied => "File exists"
  | notEmpty => "Directory not empty"
  | notText => "stream did not contain valid UTF-8"

/-- The number of a fault, for those that have one. -/
def FileFault.number? : FileFault → Option Nat
  | missing => some 2
  | notDirectory => some 20
  | isDirectory => some 21
  | denied => some 13
  | occupied => some 17
  | notEmpty => some 39
  | notText => none

/-- The words for a fault with its number. -/
def FileFault.message (f : FileFault) : String :=
  match f.number? with
  | some n => f.words ++ s!" (os error {n})"
  | none => f.words

/-- A tree of files. -/
abbrev Files := List (Place × Entry)

namespace Files

/-- What stands at a place. -/
def at? (files : Files) (place : Place) : Option Entry :=
  if place.isEmpty then some .directory else List.lookup place files

/-- A directory stands at a place. -/
def isDirectory (files : Files) (place : Place) : Bool :=
  match files.at? place with
  | some .directory => true
  | _ => false

/-- Puts an entry at a place. -/
def put (files : Files) (place : Place) (entry : Entry) : Files :=
  match files with
  | [] => [(place, entry)]
  | (p, e) :: rest => if p == place then (p, entry) :: rest else (p, e) :: put rest place entry

/-- Removes a place and everything below it. -/
def remove (files : Files) (place : Place) : Files :=
  files.filter fun (p, _) => !place.isPrefixOf p

/-- The names in a directory, in ascending order. -/
def names (files : Files) (place : Place) : List String :=
  (files.filterMap fun (p, _) =>
    match p.getLast? with
    | some name => if p.dropLast == place then some name else none
    | none => none).mergeSort (· ≤ ·)

/-- Makes a directory with all directories above it. -/
def makeDirectories (files : Files) (place : Place) : Files :=
  (List.range (place.length + 1)).foldl (fun files n =>
    if files.isDirectory (place.take n) then files else files.put (place.take n) .directory) files

/-- Writes a file, making the directories above it. -/
def write (files : Files) (place : Place) (content : Bytes) : Files :=
  (files.makeDirectories place.dropLast).put place (.file content false)

/-- The names of a path between slashes. -/
def segments (path : String) : List String :=
  ((Text.splitAtChar '/' path.toList).map String.ofList).filter fun s => s != "" && s != "."

/-- Follows names from a place; each name but the last must lead to a directory. -/
def follow (files : Files) : Place → List String → Except FileFault Place
  | place, [] => .ok place
  | place, name :: rest =>
    match files.at? place with
    | none => .error .missing
    | some .directory =>
      if name == ".." then follow files place.dropLast rest
      else follow files (place ++ [name]) rest
    | some _ => .error .notDirectory

/-- A path can only lead to a directory. -/
def demandsDirectory (path : String) : Bool :=
  match (Text.splitAtChar '/' path.toList).getLast? with
  | some last => path != "" && (last == [] || last == ['.'])
  | none => false

/-- The place that a path leads to from a directory. -/
def resolve (files : Files) (dir : Place) (path : String) : Except FileFault Place :=
  if path == "" then .error .missing
  else
    match files.follow (if path.toList.head? == some '/' then [] else dir) (segments path) with
    | .error e => .error e
    | .ok place =>
      if demandsDirectory path then
        match files.at? place with
        | some .directory => .ok place
        | some _ => .error .notDirectory
        | none => .ok place
      else .ok place

/-- What a path leads to. -/
def lookup (files : Files) (dir : Place) (path : String) : Except FileFault (Place × Entry) :=
  match files.resolve dir path with
  | .error e => .error e
  | .ok place =>
    match files.at? place with
    | some entry => .ok (place, entry)
    | none => .error .missing

/-- The content of a file. -/
def read (files : Files) (dir : Place) (path : String) : Except FileFault Bytes :=
  match files.lookup dir path with
  | .error e => .error e
  | .ok (_, .file content _) => .ok content
  | .ok (_, .sink) => .ok []
  | .ok (_, .directory) => .error .isDirectory

/-- The text of a file. -/
def readText (files : Files) (dir : Place) (path : String) : Except FileFault String :=
  match files.read dir path with
  | .error e => .error e
  | .ok bytes =>
    let text := bytes.text
    if Bytes.ofText text == bytes then .ok text else .error .notText

/-- The place for a new or old file that can be written. -/
def writable (files : Files) (dir : Place) (path : String) : Except FileFault Place :=
  match files.resolve dir path with
  | .error e => .error e
  | .ok place =>
    match files.at? place with
    | some .directory => .error .isDirectory
    | some _ => .ok place
    | none =>
      if demandsDirectory path then .error .isDirectory
      else if files.isDirectory place.dropLast then .ok place
      else
        match files.at? place.dropLast with
        | some _ => .error .notDirectory
        | none => .error .missing

/-- Replaces the content of a place. -/
def setContent (files : Files) (place : Place) (content : Bytes) : Files :=
  match files.at? place with
  | some .sink => files
  | some (.file _ executable) => files.put place (.file content executable)
  | _ => files.put place (.file content false)

/-- Adds to the content of a place. -/
def appendContent (files : Files) (place : Place) (more : Bytes) : Files :=
  match files.at? place with
  | some (.file content executable) => files.put place (.file (content ++ more) executable)
  | some .sink => files
  | _ => files.put place (.file more false)

end Files

/-- A place as a path. -/
def Place.path (place : Place) : String := "/" ++ "/".intercalate place

end PlaybookRunner
