import SwiftWrap.Files.Basic
import SwiftWrap.Output

/-! The commands, what they do to files, and why they fail.

A command reads one file, makes something of it, and only then writes or prints. So a
command that fails has written nothing. It fails for a path that is not there, a file that cannot
be read or written, or a problem with the schema in a file. -/
namespace SwiftWrap

/-! ### Failures -/

/-- Why a run fails. -/
inductive Failure where
  | files (error : FileError)
  | missingPath (path : String)
  | schema (file : String) (problem : Problem)
deriving DecidableEq

namespace Failure

/-- The name of the failure. -/
def label : Failure → String
  | files _ => "Io"
  | missingPath _ => "MissingPath"
  | schema _ problem => problem.label

/-- The failure in words. -/
def message : Failure → String
  | files error => "I/O error: " ++ error.message
  | missingPath path => "Does not exist: " ++ path
  | schema file problem => problem.message file

/-- The failure as a diagnostic. -/
def diagnostic : Failure → String
  | files error => "Io(" ++ error.diagnostic ++ ")"
  | missingPath path => "MissingPath(" ++ Text.shown path ++ ")"
  | schema file problem => problem.diagnostic file

end Failure

/-! ### Commands -/

/-- What the program can be asked to do. -/
inductive Command where
  /-- Write the wrappers for a schema into a directory. -/
  | generate (directory file : String) (prefixes : Prefixes) (destination : String)
  /-- Print the linked schema as an interchange value. -/
  | dump (input : String) (prefixes : Prefixes)
  /-- Print the schema in its fixed form, or write it to a file. -/
  | format (input : String) (output : Option String)
deriving DecidableEq

section
variable {m : Type → Type} [Monad m] [Files m]

/-- The text of a file. -/
def readText (path : String) : ExceptT Failure m String := do
  match ← Files.read (m := m) path with
  | .error e => throw (.files e)
  | .ok bytes =>
    match String.fromUTF8? bytes with
    | some text => return text
    | none => throw (.files .notText)

/-- Makes a text the content of a file. -/
def writeText (path text : String) : ExceptT Failure m Unit := do
  match ← Files.write (m := m) path text with
  | .error e => throw (.files e)
  | .ok () => return ()

/-- The result of working on the schema in a file. -/
def inFile (file : String) (result : Except Problem α) : ExceptT Failure m α :=
  match result with
  | .ok a => return a
  | .error problem => throw (.schema file problem)

/-- Reads a schema, writes its wrappers into a directory, and says where. -/
def writeWrappers (input destination : String) (p : Prefixes) : ExceptT Failure m String := do
  unless ← Files.present (m := m) input do throw (.missingPath input)
  unless ← Files.directory (m := m) destination do throw (.missingPath destination)
  let text ← readText input
  let code ← inFile input (Output.wrappers p text)
  let output := joinPath destination p.fileName
  writeText output code
  return output

/-- Carries a command out and gives what it prints. -/
def Command.run : Command → ExceptT Failure m String
  | generate directory file p destination => do
    let _ ← writeWrappers (joinPath directory file) destination p
    return ""
  | dump input p => do
    let text ← readText input
    let json ← inFile input (Output.dump p text)
    return json ++ "\n"
  | format input output => do
    let text ← readText input
    let formatted ← inFile input (Output.fixedForm text)
    match output with
    | some path =>
      writeText path formatted
      return ""
    | none => return formatted

end

end SwiftWrap
