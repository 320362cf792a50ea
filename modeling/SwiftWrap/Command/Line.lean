import SwiftWrap.Command.Basic

/-! Reading a command line.

A command line is the name of a command and its options. An option has its value attached
by an equals sign or in the next word, which must not look like an option; the short form
may also have it attached directly. No option is given twice, and paths are not empty. -/
namespace SwiftWrap.Command

/-- An option that takes a value. -/
structure Flag where
  name : String
  short : Option Char
  /-- Whether the value is a path, which must not be empty. -/
  isPath : Bool
deriving DecidableEq

namespace Flag

def directory : Flag := ⟨"proto-dir", none, true⟩
def file : Flag := ⟨"proto-file", none, true⟩
def wrapperPrefix : Flag := ⟨"wrapper-prefix", none, false⟩
def wirePrefix : Flag := ⟨"proto-prefix", none, false⟩
def destination : Flag := ⟨"dst-dir", none, true⟩
def input : Flag := ⟨"input", some 'i', true⟩
def output : Flag := ⟨"output", some 'o', true⟩

/-- Whether a value can be given to the option. -/
def accepts (flag : Flag) (value : String) : Bool := !(flag.isPath && value.isEmpty)

end Flag

/-- The option that asks for a log. It takes no value; no log is kept, so it changes
nothing. -/
def verbose : String := "--verbose"

/-- What ends the options. -/
def terminator : String := "--"

/-- The option that a word names, with the value attached to it. -/
def attached? (flags : List Flag) (word : String) : Option (Flag × Option String) :=
  match word.toList with
  | '-' :: '-' :: rest =>
    let name := rest.takeWhile (· ≠ '=')
    (flags.find? (·.name.toList == name)).map fun flag =>
      match rest.dropWhile (· ≠ '=') with
      | [] => (flag, none)
      | _ :: value => (flag, some (.ofList value))
  | '-' :: c :: rest =>
    (flags.find? (·.short == some c)).map fun flag =>
      match rest with
      | [] => (flag, none)
      | '=' :: value => (flag, some (.ofList value))
      | value => (flag, some (.ofList value))
  | _ => none

/-- Whether a word can be the value of the option before it. -/
def isValue (word : String) : Bool :=
  match word.toList with
  | '-' :: _ :: _ => false
  | _ => true

/-- The options of a command line with their values, in order, and how often a log is asked
for. -/
def options? (flags : List Flag) : List String → Option (List (Flag × String) × Nat)
  | [] => some ([], 0)
  | word :: rest =>
    if word = verbose then (options? flags rest).map fun (given, n) => (given, n + 1)
    else if word = terminator then (if rest = [] then some ([], 0) else none)
    else
      match attached? flags word with
      | none => none
      | some (flag, some value) =>
        (options? flags rest).map fun (given, n) => ((flag, value) :: given, n)
      | some (flag, none) =>
        match rest with
        | [] => none
        | value :: rest =>
          if isValue value then
            (options? flags rest).map fun (given, n) => ((flag, value) :: given, n)
          else none

/-- The values of a command's options, if each is given at most once and can be given. -/
def values? (flags : List Flag) (words : List String) : Option (List (Flag × String)) :=
  match options? flags words with
  | some (given, n) =>
    if n ≤ 1 ∧ (given.map Prod.fst).Nodup ∧ given.all fun (flag, value) => flag.accepts value then
      some given
    else none
  | none => none

/-- The command that a name and its options stand for. -/
def named? (name : String) (words : List String) : Option Command :=
  if name = "generate" then do
    let given ← values? [.directory, .file, .wrapperPrefix, .wirePrefix, .destination] words
    return .generate (← given.lookup .directory) (← given.lookup .file)
      ⟨← given.lookup .wrapperPrefix, ← given.lookup .wirePrefix⟩ (← given.lookup .destination)
  else if name = "dump" then do
    let given ← values? [.input, .wrapperPrefix, .wirePrefix] words
    return .dump (← given.lookup .input)
      ⟨(given.lookup .wrapperPrefix).getD "", (given.lookup .wirePrefix).getD ""⟩
  else if name = "format" then do
    let given ← values? [.input, .output] words
    return .format (← given.lookup .input) (given.lookup .output)
  else none

/-- The command that a command line stands for. A request for help stands for none: its texts
are left out, so it is refused where the program would print them and exit with zero. -/
def ofWords? : List String → Option Command
  | [] => none
  | word :: rest =>
    if word = verbose then
      match rest with
      | [] => none
      | name :: words => named? name words
    else named? word rest

/-- How a command line is written. -/
def usage : String :=
  "usage: [--verbose] generate --proto-dir DIR --proto-file FILE --wrapper-prefix NAME " ++
    "--proto-prefix NAME --dst-dir DIR\n" ++
  "       [--verbose] dump -i FILE [--wrapper-prefix NAME] [--proto-prefix NAME]\n" ++
  "       [--verbose] format -i FILE [-o FILE]"

/-- What a run leaves behind: its exit code, what it printed, and its last words if it
failed. -/
structure Report where
  exit : UInt32
  output : String
  complaint : Option String
deriving DecidableEq

/-- Carries out a command line as something reads it. One that stands for no command does
nothing. -/
def executeBy {m : Type → Type} [Monad m] [Files m] (reading : List String → Option Command)
    (words : List String) : m Report :=
  match reading words with
  | none => return ⟨2, "", none⟩
  | some command => do
    match ← command.run.run with
    | .ok output => return ⟨0, output, none⟩
    | .error failure => return ⟨1, "", some ("Error: " ++ failure.diagnostic)⟩

/-- Carries out a command line. -/
def execute {m : Type → Type} [Monad m] [Files m] (words : List String) : m Report :=
  executeBy ofWords? words

end SwiftWrap.Command
