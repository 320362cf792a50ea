import SwiftWrap.Text.Basic

/-! Writing indented lines.

What is to be written is a script: a list of steps that add lines, change the depth, or
take back blank lines. A sheet is what has been written so far. Finished text has no white
space at the end of a line and no blank line at its end. -/
namespace SwiftWrap

/-- The lines written so far, the last one first, and the depth of the next. -/
structure Sheet where
  above : List String
  depth : Nat
deriving DecidableEq

/-- One step of writing. -/
inductive Sheet.Step where
  /-- One line at the current depth. -/
  | line (text : String)
  /-- Each line of a text at the current depth. -/
  | lines (text : String)
  | blank
  | indent
  | dedent
  /-- Takes back the blank lines at the end. -/
  | strip
deriving DecidableEq

/-- Steps to be taken one after another. -/
abbrev Script := List Sheet.Step

namespace Sheet

/-- Nothing written yet. -/
def empty : Sheet := ⟨[], 0⟩

/-- As many tabs as the depth says. -/
def tabs (depth : Nat) : String := .ofList (List.replicate depth '\t')

/-- Whether a line shows nothing. -/
def isBlankLine (line : String) : Bool := Text.allBlank line.toList

/-- The sheet with one more line. -/
def add (s : Sheet) (line : String) : Sheet := { s with above := (tabs s.depth ++ line) :: s.above }

/-- The lines of a text. -/
def linesOf (text : String) : List String := (List.splitOn '\n' text.toList).map String.ofList

/-- The sheet after one step. At depth zero there is nothing to take back. -/
def step (s : Sheet) : Step → Sheet
  | .line text => s.add text
  | .lines text => (linesOf text).foldl add s
  | .blank => s.add ""
  | .indent => { s with depth := s.depth + 1 }
  | .dedent => { s with depth := s.depth - 1 }
  | .strip => { s with above := s.above.dropWhile isBlankLine }

/-- The sheet after a script. -/
def run (s : Sheet) (script : Script) : Sheet := script.foldl step s

/-- Scripts one after another are run one after another. -/
theorem run_append (s : Sheet) (first second : Script) :
    s.run (first ++ second) = (s.run first).run second :=
  List.foldl_append

/-- A line without white space at its end. -/
def trimLine (line : String) : String := .ofList (Text.trimEnd line.toList)

/-- The finished text. -/
def text (s : Sheet) : String :=
  "\n".intercalate ((s.above.dropWhile isBlankLine).reverse.map trimLine) ++ "\n"

end Sheet

namespace Script

/-- The text that a script writes. -/
def text (script : Script) : String := (Sheet.empty.run script).text

/-- A block in braces, its body one level deeper. -/
def braced (head : String) (body : Script) : Script :=
  [.line (head ++ " \x7b"), .indent] ++ body ++ [.dedent, .line "\x7d"]

end Script
end SwiftWrap
