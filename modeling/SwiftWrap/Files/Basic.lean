/-! What the program needs of a file system, and how that can fail. -/
namespace SwiftWrap

/-- Why a file could not be read or written. -/
inductive FileError where
  | notFound
  | notDirectory
  | isDirectory
  | nameTooLong
  /-- A path with a character that no file name can have. -/
  | badPath
  /-- A file that does not hold text. -/
  | notText
  | other (description : String)
deriving DecidableEq

namespace FileError

/-- The number under which the operating system reports the error, if it does. -/
def code? : FileError → Option Nat
  | notFound => some 2
  | notDirectory => some 20
  | isDirectory => some 21
  | nameTooLong => some 36
  | badPath | notText | other _ => none

/-- The name of the error in diagnostics. -/
def label : FileError → String
  | notFound => "NotFound"
  | notDirectory => "NotADirectory"
  | isDirectory => "IsADirectory"
  | nameTooLong => "InvalidFilename"
  | badPath => "InvalidInput"
  | notText => "InvalidData"
  | other _ => "Other"

/-- The error in words, without its number. -/
def description : FileError → String
  | notFound => "No such file or directory"
  | notDirectory => "Not a directory"
  | isDirectory => "Is a directory"
  | nameTooLong => "File name too long"
  | badPath => "file name contained an unexpected NUL byte"
  | notText => "stream did not contain valid UTF-8"
  | other description => description

/-- The error in words. -/
def message (e : FileError) : String :=
  match e.code? with
  | some code => s!"{e.description} (os error {code})"
  | none => e.description

/-- The error as a diagnostic. -/
def diagnostic (e : FileError) : String :=
  (match e.code? with
    | some code => "Os \x7b code: " ++ toString code ++ ", "
    | none => "Error \x7b ") ++
  s!"kind: {e.label}, message: \"" ++ e.description ++ "\" \x7d"

end FileError

/-- Files as the program uses them. -/
class Files (m : Type → Type) where
  /-- Whether there is a file or a directory at a path. -/
  present : String → m Bool
  /-- Whether there is a directory at a path. -/
  directory : String → m Bool
  /-- The content of the file at a path. -/
  read : String → m (Except FileError ByteArray)
  /-- Makes a text the content of the file at a path. -/
  write : String → String → m (Except FileError Unit)

/-- A path inside a directory. An absolute path stays as it is. -/
def joinPath (directory path : String) : String :=
  if path.toList.head? = some '/' then path
  else if directory.isEmpty || directory.toList.getLast? = some '/' then directory ++ path
  else directory ++ "/" ++ path

end SwiftWrap
