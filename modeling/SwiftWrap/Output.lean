import SwiftWrap.Schema.Dump
import SwiftWrap.Schema.Link
import SwiftWrap.Schema.Reader
import SwiftWrap.Swift.Code

/-! From the text of a schema to what is made of it: its fixed form, its dump, and the
wrappers for it.

In the fixed form the package comes first, then each declaration with its nested blocks before
its fields. -/
namespace SwiftWrap

/-! ### The fixed form -/

/-- The line that declares a field. -/
def Field.line (f : Field) : String :=
  (match f.cardinality with
    | some cardinality => cardinality.keyword ++ " "
    | none => "") ++
  s!"{f.typeName} {f.name} = {f.index}" ++
  (match f.default with
    | some true => " [default = true]"
    | some false => " [default = false]"
    | none => "") ++ ";"

/-- The line that declares an item. -/
def Item.line (i : Item) : String := s!"{i.name} = {i.index};"

/-- A declaration around the script of its nested blocks. -/
def Declaration.script (d : Declaration) (nested : Script) : Script :=
  Script.braced s!"{d.kind.keyword} {d.name}"
    (nested ++ d.fields.map (.line ·.line) ++ d.items.map (.line ·.line))

namespace Schema

/-- The lines before the first declaration. -/
def headScript (s : Schema) : Script :=
  .line "syntax = \"proto2\";" ::
    match s.package with
    | some package => [.line s!"package {package};"]
    | none => []

/-- A declaration and everything below it. -/
def declarationScript (s : Schema) (id : Nat) : Script :=
  s.collect (fun _ d nested => d.script nested) id

/-- The schema in its fixed form. -/
def script (s : Schema) : Script :=
  s.headScript ++ s.roots.flatMap fun root => .blank :: s.declarationScript root

/-- The text of a schema. -/
def text (s : Schema) : String := s.script.text

end Schema

/-! ### What is made of a text -/

namespace Schema

/-- The schema that a text holds. -/
def ofText (text : String) : Except Problem Schema := ofLines (Source.lines text)

/-- The schema, linked, or the problem that ended it. -/
def linked (s : Schema) (p : Prefixes) : Except Problem Schema :=
  match s.link p with
  | ⟨s, none⟩ => .ok s
  | ⟨_, some problem⟩ => .error problem

/-- The schema that a text holds, linked. -/
def linkedOfText (p : Prefixes) (text : String) : Except Problem Schema := do
  let s ← ofText text
  s.linked p

end Schema

namespace Output

/-- The wrappers for a text. -/
def wrappers (p : Prefixes) (text : String) : Except Problem String :=
  (Schema.linkedOfText p text).map Swift.code

/-- A text in its fixed form. Types are not resolved. -/
def fixedForm (text : String) : Except Problem String := (Schema.ofText text).map Schema.text

/-- The linked schema of a text as an interchange value. -/
def dump (p : Prefixes) (text : String) : Except Problem String :=
  (Schema.linkedOfText p text).map Schema.dump

end Output

end SwiftWrap
