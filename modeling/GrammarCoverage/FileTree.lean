/-!
# File trees

Files and directories around a working directory, how a path is followed, and how files are written.
A path is shown and followed without its empty and its dot components; two dots lead to the
directory above, and a slash in front leads away from the working directory.
-/

namespace GrammarCoverage

/-- The way to a place from the working directory, the last name first. Two dots come last in it, if
at all; a slash comes last if the way begins at the top of all directories. -/
abbrev Place := List String

/-- Files and directories by their places. -/
structure FileTree where
  files : List (Place × ByteArray)
  directories : List Place

namespace FileTree

/-! ### Paths -/

/-- The components of a path that lead somewhere. -/
def components (path : String) : List String :=
  (path.splitOn "/").filter fun c => c ≠ "" && c ≠ "."

def isAbsolute (path : String) : Bool := path.toList.head? = some '/'

/-- A path as it is shown: its components, after a slash if it begins with one. -/
def normalized (path : String) : String :=
  let cs := path.toList
  let root :=
    if cs.take 2 = ['/', '/'] && cs[2]? ≠ some '/' then "//"
    else if isAbsolute path then "/"
    else ""
  let shown := root ++ "/".intercalate (components path)
  if shown.isEmpty then "." else shown

def start (path : String) : Place := if isAbsolute path then ["/"] else []

/-- The place that a component leads to. -/
def step (here : Place) (c : String) : Place :=
  if c ≠ ".." then c :: here
  else
    match here with
    | ["/"] => ["/"]
    | [] => [".."]
    | name :: above => if name = ".." then ".." :: here else above

def nameLimit : Nat := 255

/-- The number of bytes that no path reaches. -/
def pathBound : Nat := 4096

/-! ### Places -/

/-- Some places that are there always. -/
def standard : FileTree where
  files := [(["null", "dev", "/"], ByteArray.empty)]
  directories := ["/"] ::
    (["bin", "dev", "etc", "home", "lib", "opt", "proc", "root", "sys", "tmp", "usr", "var"].map
      fun name => [name, "/"])

/-- What stands at a place of a tree. -/
inductive Entry where
  | file (content : ByteArray)
  | directory
  | nothing
  /-- The way leads through a file. -/
  | blocked
  /-- A name or the path is too long. -/
  | tooLong

/-- What stands at a place. The working directory and those above it are always there. -/
def entry (t : FileTree) (place : Place) : Entry :=
  match t.files.find? (·.1 = place) with
  | some (_, content) => .file content
  | none =>
    if place.all (· = "..") || t.directories.contains place then .directory else .nothing

def follow (t : FileTree) : Place → List String → Entry
  | here, [] => t.entry here
  | here, c :: rest =>
    match t.entry here with
    | .directory => if nameLimit < c.utf8ByteSize then .tooLong else follow t (step here c) rest
    | .file _ => .blocked
    | other => other

/-- What stands at the end of a path. -/
def lookup (t : FileTree) (path : String) : Entry :=
  if pathBound ≤ (normalized path).utf8ByteSize then .tooLong
  else t.follow (start path) (components path)

/-! ### Writing -/

/-- Why a file cannot be written. -/
inductive WriteError where
  /-- A file stands where a directory should be. -/
  | alreadyExists
  /-- The way leads through a file. -/
  | blocked
  /-- A directory stands where the file should be. -/
  | isADirectory
  | tooLong
  | nullInPath
deriving DecidableEq

/-- Follow components from a place, and make the directories that are missing. -/
def makeWay (t : FileTree) : Place → List String → Except WriteError (FileTree × Place)
  | here, [] => .ok (t, here)
  | here, c :: rest =>
    if nameLimit < c.utf8ByteSize then .error .tooLong
    else
      let next := step here c
      match t.entry next with
      | .directory => makeWay t next rest
      | .nothing => makeWay { t with directories := next :: t.directories } next rest
      | .file _ => .error (if rest.isEmpty then .alreadyExists else .blocked)
      | .blocked | .tooLong => .error .blocked

def write (t : FileTree) (path : String) (content : ByteArray) : Except WriteError FileTree := do
  if path.toList.contains '\x00' then throw .nullInPath
  let names := components path
  let (t, place) ← t.makeWay (start path) names.dropLast
  match names.getLast? with
  | none => throw .isADirectory
  | some name =>
    if nameLimit < name.utf8ByteSize then throw .tooLong
    let place := step place name
    match t.entry place with
    | .directory => throw .isADirectory
    | _ => return { t with files := (place, content) :: t.files.filter (·.1 ≠ place) }

/-- The tree after files have been written in order. -/
def ofList (files : List (String × ByteArray)) : Except WriteError FileTree :=
  files.foldlM (fun t f => t.write f.1 f.2) standard

end FileTree

end GrammarCoverage
