import SwiftWrap.Schema.Basic
import SwiftWrap.Text.Basic
import SwiftWrap.Text.Word

/-! Source text as numbered lines of code, and the statements on them.

Block comments go first: each one that is closed leaves only its line breaks, so that
every remaining character keeps its line number, and one that is never closed is ordinary
text. Then each line is cut at its first `//`, trimmed, and dropped if nothing is left.

What a line may say depends on where it stands: at file scope, in a message or in an enum.
Each scope has its own type of statements and its own reader; a line that the reader
refuses is no statement of that scope. Words, numbers and gaps are maximal runs of their
class, so a line has one reading at most. -/
namespace SwiftWrap

/-! ### Lines of code -/

/-- A line of code with its number in the source, counted from one. -/
structure Line where
  text : String
  number : Nat
deriving DecidableEq

namespace Source
open Text

/-- The text without closed block comments, whose line breaks stay. -/
def withoutBlocks : List Char → List Char
  | [] => []
  | '/' :: '*' :: rest =>
    match h : cutAtPair '*' '/' rest with
    | some (inside, after) =>
      have : after.length < rest.length := by simp [eq_of_cutAtPair h]; omega
      inside.filter (· = '\n') ++ withoutBlocks after
    | none => '/' :: '*' :: rest
  | c :: rest => c :: withoutBlocks rest
termination_by cs => cs.length

/-- Removing block comments moves no line break. -/
theorem count_withoutBlocks (cs : List Char) : (withoutBlocks cs).count '\n' = cs.count '\n' := by
  fun_induction withoutBlocks cs with
  | case1 => rfl
  | case2 rest inside after h _ ih =>
    rw [eq_of_cutAtPair h]
    simp [ih, List.count_append, List.count_filter]
  | case3 => rfl
  | case4 c rest _ ih => simp [List.count_cons, ih]

/-- What stands before the first `//`. -/
def withoutTail (cs : List Char) : List Char :=
  match cutAtPair '/' '/' cs with
  | some (before, _) => before
  | none => cs

/-- The code of one line: no comment at its end and no white space around it. -/
def code (cs : List Char) : List Char := trim (withoutTail cs)

/-- The lines of a source that hold code. -/
def lines (text : String) : List Line :=
  ((List.splitOn '\n' (withoutBlocks text.toList)).zipIdx 1).filterMap fun (cs, number) =>
    match code cs with
    | [] => none
    | c :: rest => some ⟨.ofList (c :: rest), number⟩

end Source

/-! ### Statements -/

/-- What a line says at file scope. -/
inductive FileStatement where
  /-- A line that has no meaning here: the language version, or an option. -/
  | ignored
  | package (name : String)
  | openMessage (name : String)
deriving DecidableEq

/-- What a line says inside a message. -/
inductive MessageStatement where
  | close
  | openEnum (name : String)
  | openMessage (name : String)
  | field (field : Field)
deriving DecidableEq

/-- What a line says inside an enum. -/
inductive EnumStatement where
  | close
  | item (item : Item)
deriving DecidableEq

namespace Statement
open Text

/-! ### Pieces of a line -/

/-- The word at the start of a text, and what follows it. -/
def word? (cs : List Char) : Option (String × List Char) :=
  match cs.takeWhile isWord with
  | [] => none
  | word => some (.ofList word, cs.dropWhile isWord)

/-- What follows the white space at the start of a text, which must have some. -/
def afterGap? : List Char → Option (List Char)
  | [] => none
  | c :: rest => if isBlank c then some (trimStart rest) else none

/-- What follows an equals sign and the white space around it. -/
def afterEquals? (cs : List Char) : Option (List Char) :=
  match trimStart cs with
  | '=' :: rest => some (trimStart rest)
  | _ => none

/-- The value of a row of ASCII digits. -/
def decimal? (digits : List Char) : Option Nat :=
  if digits.all fun c => '0' ≤ c && c ≤ '9' then
    some (digits.foldl (fun n c => 10 * n + (c.toNat - '0'.toNat)) 0)
  else none

/-- The number below `bound` at the start of a text, and what follows it and the white
space behind it. -/
def number? (bound : Nat) (cs : List Char) : Option (Nat × List Char) :=
  match cs.takeWhile isDigit with
  | [] => none
  | digits =>
    match decimal? digits with
    | some n => if n < bound then some (n, trimStart (cs.dropWhile isDigit)) else none
    | none => none

/-! ### Blocks and packages -/

/-- The name between a block's keyword and its brace. White space must stand on both
sides of it. A name of white space alone is empty, and needs a character of its own that
is not a line break. -/
def nameBetween? (inner : List Char) : Option String :=
  if inner.head?.any isBlank && inner.getLast?.any isBlank then
    match trim inner with
    | [] => if inner.tail.dropLast.any (· ≠ '\n') then some "" else none
    | name => if name.contains '\n' then none else some (.ofList name)
  else none

/-- The name of the block that a line opens. -/
def blockName? (kind : Kind) (cs : List Char) : Option String :=
  match after? kind.keyword.toList cs with
  | some rest => if rest.getLast? = some '\x7b' then nameBetween? rest.dropLast else none
  | none => none

/-- The package that a line names: what stands before the last semicolon of the line that
starts after the gap. If nothing stands there, the last character of the gap is taken for
the name, which leaves it empty. -/
def packageName? (cs : List Char) : Option String :=
  match after? "package".toList cs with
  | none => none
  | some rest =>
    let gap := rest.takeWhile isBlank
    match gap, beforeLast ';' ((rest.dropWhile isBlank).takeWhile (· ≠ '\n')) with
    | [], _ => none
    | _, none => none
    | _, some [] =>
      if 2 ≤ gap.length && gap.getLast? ≠ some '\n' then some "" else none
    | _, some name => some (.ofList (trim name))

/-! ### Fields and items -/

/-- How a field's line ends after its index: with a default value or without. -/
def fieldEnd? (cs : List Char) : Option (Option Bool) :=
  if cs = ";".toList then some none
  else if cs = "[default = true];".toList then some (some true)
  else if cs = "[default = false];".toList then some (some false)
  else none

/-- A field from its words and from what follows the equals sign. -/
def fieldWith? (cardinality : Option Cardinality) (typeName name : String) (value : List Char) :
    Option Field := do
  let (index, rest) ← number? 0x100000000 value
  let default ← fieldEnd? rest
  return .declare cardinality typeName name index default

/-- The field that a line declares. Of three words the first says how often it occurs; of
two words neither does, whatever they are. -/
def field? (cs : List Char) : Option Field := do
  let (first, rest) ← word? cs
  let (second, rest) ← word? (← afterGap? rest)
  match afterEquals? rest with
  | some value => fieldWith? none first second value
  | none =>
    let cardinality ← Cardinality.ofKeyword? first
    let (third, rest) ← word? (← afterGap? rest)
    fieldWith? (some cardinality) second third (← afterEquals? rest)

/-- The item that a line declares. -/
def item? (cs : List Char) : Option Item := do
  let (name, rest) ← word? cs
  let (index, rest) ← number? 0x80000000 (← afterEquals? rest)
  if rest = ";".toList then some ⟨name, index⟩ else none

end Statement

open Statement

/-- The statement of a line at file scope. -/
def FileStatement.read? (text : String) : Option FileStatement :=
  let cs := text.toList
  if (Text.after? "syntax ".toList cs).isSome || (Text.after? "option ".toList cs).isSome then
    some .ignored
  else
    match packageName? cs with
    | some name => some (.package name)
    | none => (blockName? .message cs).map .openMessage

/-- The statement of a line inside a message. -/
def MessageStatement.read? (text : String) : Option MessageStatement :=
  let cs := text.toList
  if cs = ['\x7d'] then some .close
  else
    match blockName? .enumeration cs, blockName? .message cs with
    | some name, _ => some (.openEnum name)
    | none, some name => some (.openMessage name)
    | none, none => (field? cs).map .field

/-- The statement of a line inside an enum. -/
def EnumStatement.read? (text : String) : Option EnumStatement :=
  let cs := text.toList
  if cs = ['\x7d'] then some .close else (item? cs).map .item

end SwiftWrap
