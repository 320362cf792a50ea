import SwiftWrap.Files.Basic
import SwiftWrap.Text.Basic

/-! A directory with everything in it, as a value.

Paths are relative to the directory. A path is followed name by name; every name before
the last must be a directory, and so must the last if a slash follows it. No file is
written to such a path, so its last name is not even looked up. Of what lies outside the
directory only the directories above it are known. -/
namespace SwiftWrap

/-- The names that lead from the top directory to a file or a directory. Those of the
directories above begin with as many double dots as there are levels to go up. -/
abbrev Location := List String

/-- The directories below the top one, and the files with their contents. -/
structure FileTree where
  directories : List Location
  files : List (Location × ByteArray)

namespace FileTree

/-- Nothing but the top directory. -/
def empty : FileTree := ⟨[], []⟩

/-- What a path leads to. -/
inductive Place where
  | directory (location : Location)
  | file (location : Location) (content : ByteArray)
  /-- Nothing, in a directory that is there. -/
  | vacant (location : Location)

/-! ### Following paths -/

/-- The longest file name, and the longest path, in bytes. -/
def nameLimit : Nat := 255

@[inherit_doc nameLimit]
def pathLimit : Nat := 4095

/-- The names on a path. -/
def names (path : String) : List String :=
  ((List.splitOn '/' path.toList).filter (· ≠ [])).map String.ofList

/-- Whether a path ends with a slash. -/
def endsOpen (path : String) : Bool := path.toList.getLast? = some '/'

/-- Whether a location is the top directory or one above it. -/
def isAbove (location : Location) : Bool := location.all (· == "..")

/-- The location that a name leads to: a dot stays, two dots go up. -/
def enter (location : Location) (name : String) : Location :=
  if name = "." then location
  else if name = ".." && !isAbove location then location.dropLast
  else location ++ [name]

/-- What is at a location whose directory is there. -/
def placeAt (t : FileTree) (location : Location) : Place :=
  if isAbove location || t.directories.contains location then .directory location
  else
    match t.files.lookup location with
    | some content => .file location content
    | none => .vacant location

/-- Where names lead from a directory. -/
def follow (t : FileTree) (location : Location) : List String → Except FileError Place
  | [] => .ok (.directory location)
  | name :: rest =>
    if nameLimit < name.utf8ByteSize then .error .nameTooLong
    else
      match t.placeAt (enter location name) with
      | .directory inner => t.follow inner rest
      | .file inner content => if rest = [] then .ok (.file inner content) else .error .notDirectory
      | .vacant inner => if rest = [] then .ok (.vacant inner) else .error .notFound

/-- The names on a path that can be followed at all. -/
def steps (path : String) : Except FileError (List String) :=
  if path.toList.contains '\x00' then .error .badPath
  else if path.isEmpty || path.toList.head? = some '/' then .error .notFound
  else if pathLimit < path.utf8ByteSize then .error .nameTooLong
  else .ok (names path)

/-- Where a path leads. -/
def locate (t : FileTree) (path : String) : Except FileError Place := do
  t.follow [] (← steps path)

/-! ### Reading and writing -/

/-- What is at a path, for a reader. -/
def visit (t : FileTree) (path : String) : Except FileError Place := do
  match ← t.locate path with
  | .directory location => .ok (.directory location)
  | .file location content =>
    if endsOpen path then .error .notDirectory else .ok (.file location content)
  | .vacant _ => .error .notFound

/-- Whether there is a file or a directory at a path. -/
def present (t : FileTree) (path : String) : Bool :=
  match t.visit path with
  | .ok _ => true
  | .error _ => false

/-- Whether there is a directory at a path. -/
def isDirectory (t : FileTree) (path : String) : Bool :=
  match t.visit path with
  | .ok (.directory _) => true
  | _ => false

/-- The content of the file at a path. -/
def read (t : FileTree) (path : String) : Except FileError ByteArray := do
  match ← t.visit path with
  | .file _ content => .ok content
  | .directory _ => .error .isDirectory
  | .vacant _ => .error .notFound

/-- Why no file is written to a path that ends with a slash, by the names before its last:
where they lead to a directory, the path as a whole is taken for one. -/
def slashError (t : FileTree) (way : List String) : FileError :=
  match t.follow [] way with
  | .ok (.directory _) => .isDirectory
  | .ok (.file ..) => .notDirectory
  | .ok (.vacant _) => .notFound
  | .error e => e

/-- Where a file is to be written: over a file, or where there is nothing. -/
def target (t : FileTree) (path : String) : Except FileError Location := do
  let way ← steps path
  if endsOpen path then .error (t.slashError way.dropLast)
  else
    match ← t.follow [] way with
    | .directory _ => .error .isDirectory
    | .file location _ | .vacant location => .ok location

/-- The tree with a content at a location. -/
def put (t : FileTree) (location : Location) (content : ByteArray) : FileTree :=
  { t with files := (location, content) :: t.files.filter (·.1 ≠ location) }

/-- A tree that changes as a program runs. -/
instance : Files (StateM FileTree) where
  present path := return (← get).present path
  directory path := return (← get).isDirectory path
  read path := return (← get).read path
  write path text := do
    match (← get).target path with
    | .ok location =>
      modify (·.put location text.toUTF8)
      return .ok ()
    | .error e => return .error e

/-! ### Making and comparing trees -/

/-- The tree with every directory that names lead through, and the last of these. -/
def makeWay (t : FileTree) (location : Location) : List String → FileTree × Location
  | [] => (t, location)
  | name :: rest =>
    let inner := enter location name
    let grown :=
      if isAbove inner || t.directories.contains inner then t
      else { t with directories := t.directories ++ [inner] }
    grown.makeWay inner rest

/-- The tree with a directory and all directories on the way to it. -/
def addDirectory (t : FileTree) (path : String) : FileTree := (t.makeWay [] (names path)).1

/-- The tree with a file and all directories on the way to it. -/
def addFile (t : FileTree) (path : String) (content : ByteArray) : FileTree :=
  match (names path).getLast? with
  | none => t
  | some name =>
    let (t, location) := t.makeWay [] (names path).dropLast
    t.put (enter location name) content

/-- The files in the top directory that are new or have another content than before. -/
def changes (before after : FileTree) : List (Location × ByteArray) :=
  after.files.filter fun (location, content) =>
    location.head? != some ".." && before.files.lookup location != some content

end FileTree
end SwiftWrap
