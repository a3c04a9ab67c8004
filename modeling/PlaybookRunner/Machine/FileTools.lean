import PlaybookRunner.Machine.Process

/-!
# Programs on files

Small programs that make, remove, copy and name files.
-/

namespace PlaybookRunner.FileTools

/-- A path without slashes at its end. -/
def trimSlashes (path : List Char) : List Char := (path.reverse.dropWhile (· == '/')).reverse

/-- What stands after the last slash. -/
def afterSlash (path : List Char) : List Char := (path.reverse.takeWhile (· != '/')).reverse

/-- The last name of a path. -/
def lastName (path : String) : String :=
  let trimmed := trimSlashes path.toList
  if trimmed.isEmpty then (if path == "" then "" else "/")
  else String.ofList (afterSlash trimmed)

/-- A path without its last name. -/
def parentName (path : String) : String :=
  let trimmed := trimSlashes path.toList
  let dir := trimmed.take (trimmed.length - (afterSlash trimmed).length)
  if trimmed.isEmpty then (if path == "" then "." else "/")
  else if dir.isEmpty then "."
  else
    let dir := trimSlashes dir
    if dir.isEmpty then "/" else String.ofList dir

/-- Prints the last name of a path, without an ending if one is given. -/
def basename : Program
  | [] => do
    Process.complain "basename: missing operand"
    return 1
  | path :: rest => do
    let name := lastName path
    let name := match rest with
      | ending :: _ =>
        if name != ending && ending.toList.isSuffixOf name.toList then
          String.ofList (name.toList.take (name.length - ending.length))
        else name
      | [] => name
    Process.printLine name
    return 0

/-- Prints paths without their last names. -/
def dirname : Program := fun paths => do
  for path in paths do
    Process.printLine (parentName path)
  return (if paths.isEmpty then 1 else 0)

/-- Prints the working directory. -/
def pwd : Program := fun _ => do
  Process.printLine (Place.path (← get).dir)
  return 0

/-- Makes files, leaving those that are there. -/
def touch : Program := fun args => do
  let (_, paths) := splitOptions args
  Process.forEach paths fun path => do
    let s ← get
    match s.files.lookup s.dir path with
    | .ok _ => return 0
    | .error _ =>
      match s.files.writable s.dir path with
      | .ok place =>
        set { s with files := s.files.put place (.file [] false) }
        return 0
      | .error fault =>
        Process.complain ("touch: cannot touch '" ++ path ++ "': " ++ fault.words)
        return 1

/-- Makes directories. -/
def mkdir : Program := fun args => do
  let (options, paths) := splitOptions args
  let refuse (path : String) (fault : FileFault) : Process Nat := do
    Process.complain ("mkdir: cannot create directory '" ++ path ++ "': " ++ fault.words)
    return 1
  Process.forEach paths fun path => do
    let s ← get
    if options.contains 'p' then
      let start := if path.toList.head? == some '/' then [] else s.dir
      let place := start ++ Files.segments path
      match s.files.at? place with
      | some .directory => return 0
      | some _ => refuse path .occupied
      | none =>
        set { s with files := s.files.makeDirectories place }
        return 0
    else
      match s.files.resolve s.dir path with
      | .error fault => refuse path fault
      | .ok place =>
        if (s.files.at? place).isSome then refuse path .occupied
        else if s.files.isDirectory place.dropLast then
          set { s with files := s.files.put place .directory }
          return 0
        else refuse path .missing

/-- Removes empty directories. -/
def rmdir : Program := fun args => do
  let (_, paths) := splitOptions args
  Process.forEach paths fun path => do
    let s ← get
    let refuse (fault : FileFault) : Process Nat := do
      Process.complain ("rmdir: failed to remove '" ++ path ++ "': " ++ fault.words)
      return 1
    match s.files.lookup s.dir path with
    | .error fault => refuse fault
    | .ok (place, .directory) =>
      if (s.files.names place).isEmpty then
        set { s with files := s.files.remove place }
        return 0
      else refuse .notEmpty
    | .ok _ => refuse .notDirectory

/-- Removes files, and directories if asked to. -/
def rm : Program := fun args => do
  let (options, paths) := splitOptions args
  let deep := options.contains 'r' || options.contains 'R'
  if paths.isEmpty && !options.contains 'f' then
    Process.complain "rm: missing operand\nTry 'rm --help' for more information."
    return 1
  Process.forEach paths fun path => do
    let s ← get
    match s.files.lookup s.dir path with
    | .error fault =>
      if options.contains 'f' then return 0
      Process.complain ("rm: cannot remove '" ++ path ++ "': " ++ fault.words)
      return 1
    | .ok (place, .directory) =>
      if deep then
        set { s with files := s.files.remove place }
        return 0
      else
        Process.complain ("rm: cannot remove '" ++ path ++ "': Is a directory")
        return 1
    | .ok (place, _) =>
      set { s with files := s.files.remove place }
      return 0

/-- The place that something gets which is copied to a path. -/
def target (s : ProcessState) (source path : String) : Except FileFault Place :=
  match s.files.lookup s.dir path with
  | .ok (place, .directory) => .ok (place ++ [lastName source])
  | _ => s.files.writable s.dir path

/-- Copies what stands at a place, and all below it, to another place. -/
def copied (files : Files) (source destination : Place) : Files :=
  files.foldl (fun all (place, entry) =>
    if source.isPrefixOf place then all.put (destination ++ place.drop source.length) entry
    else all) files

/-- Copies or moves sources to the last operand. -/
def transfer (program : String) (move : Bool) : Program := fun args => do
  let (options, operands) := splitOptions args
  let deep := move || options.contains 'r' || options.contains 'R' || options.contains 'a'
  let hint := "\nTry '" ++ program ++ " --help' for more information."
  match operands, operands.getLast? with
  | [], _ =>
    Process.complain (program ++ ": missing file operand" ++ hint)
    return 1
  | [path], _ =>
    Process.complain (program ++ ": missing destination file operand after '" ++ path ++ "'" ++ hint)
    return 1
  | _, none => return 1
  | _, some last =>
    Process.forEach operands.dropLast fun path => do
      let s ← get
      match s.files.lookup s.dir path with
      | .error fault =>
        Process.complain (program ++ ": cannot stat '" ++ path ++ "': " ++ fault.words)
        return 1
      | .ok (place, entry) =>
        match entry, deep with
        | .directory, false =>
          Process.complain (program ++ ": -r not specified; omitting directory '" ++ path ++ "'")
          return 1
        | _, _ =>
          match target s path last with
          | .error fault =>
            Process.complain (program ++ ": cannot create '" ++ last ++ "': " ++ fault.words)
            return 1
          | .ok destination =>
            let files := copied s.files place destination
            set { s with files := if move && place != destination then files.remove place else files }
            return 0

/-- Lists names. -/
def ls : Program := fun args => do
  let (options, paths) := splitOptions args
  let hidden := options.contains 'a' || options.contains 'A'
  Process.forEach (if paths.isEmpty then ["."] else paths) fun path => do
    let s ← get
    match s.files.lookup s.dir path with
    | .error fault =>
      Process.complain ("ls: cannot access '" ++ path ++ "': " ++ fault.words)
      return 2
    | .ok (place, .directory) =>
      if options.contains 'd' then Process.printLine path
      else
        if paths.length > 1 then Process.printLine (path ++ ":")
        if options.contains 'a' then
          Process.printLine "."
          Process.printLine ".."
        for name in s.files.names place do
          if hidden || name.toList.head? != some '.' then Process.printLine name
      return 0
    | .ok _ =>
      Process.printLine path
      return 0

/-- A mode makes a file executable. -/
def grantsExecution (mode : String) : Bool :=
  mode.toList.contains 'x' && mode.toList.contains '+' ||
    (mode.toList.all Char.isDigit && mode.toList.any fun c => c.toNat % 2 == 1)

/-- Changes whether files can be executed. -/
def chmod : Program := fun args =>
  match args with
  | mode :: paths =>
    Process.forEach paths fun path => do
      let s ← get
      match s.files.lookup s.dir path with
      | .ok (place, .file content _) =>
        set { s with files := s.files.put place (.file content (grantsExecution mode)) }
        return 0
      | .ok _ => return 0
      | .error fault =>
        Process.complain ("chmod: cannot access '" ++ path ++ "': " ++ fault.words)
        return 1
  | [] => do
    Process.complain "chmod: missing operand"
    return 1

end PlaybookRunner.FileTools
