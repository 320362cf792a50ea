import SwiftWrap.Command.Line

/-! The program: a command line, carried out on the file system it runs in. -/
namespace SwiftWrap

/-- The error that the operating system reports by a number, of either sign. -/
def FileError.ofCode? (code : UInt32) : Option FileError :=
  [notFound, notDirectory, isDirectory, nameTooLong].find? fun error =>
    error.code?.any fun n => code == n.toUInt32 || code == 0 - n.toUInt32

/-- Why an operation on the file system failed. -/
def FileError.ofSystem (error : IO.Error) : FileError :=
  let known : Option FileError :=
    match error with
    | .noFileOrDirectory .. => some .notFound
    | .inappropriateType _ code _ | .invalidArgument _ code _ => ofCode? code
    | _ => none
  known.getD (.other (toString error))

/-- Runs an operation and keeps the reason if it fails. -/
def attempt (operation : IO α) : IO (Except FileError α) :=
  try
    return .ok (← operation)
  catch error => return .error (.ofSystem error)

/-- The file system that the program runs in. -/
instance : Files IO where
  present path := return (← attempt (IO.FS.realPath path)).isOk
  directory path := return !path.isEmpty && (← attempt (IO.FS.realPath (path ++ "/."))).isOk
  read path := attempt (IO.FS.readBinFile path)
  write path text := attempt (IO.FS.writeFile path text)

end SwiftWrap

def main (args : List String) : IO UInt32 := do
  let report ← SwiftWrap.Command.execute args
  IO.print report.output
  if let some complaint := report.complaint then IO.eprintln complaint
  if report.exit = 2 then IO.eprintln SwiftWrap.Command.usage
  return report.exit
