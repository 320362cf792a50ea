import SwiftWrap.Document.Basic
import SwiftWrap.Schema.Reader

/-! Reading without numbers.

A draft is what lines amount to when nothing is numbered: the finished declarations at file
scope, and open blocks that hold what is nested in them. A closing line hands its block to
the one around it, so no declaration is ever changed once its block is closed, and what
lines do to a block can be said without what stands before it.

The program reads into a schema (`Reader`). It does on every line what a draft does
(`Reader.step_numbered`), so whatever is proved of drafts is proved of it. -/
namespace SwiftWrap

/-- An open message, with the finished blocks nested in it. -/
structure DraftMessage where
  name : String
  fields : List Field
  nested : Forest
deriving DecidableEq

/-- An open enum. -/
structure DraftEnum where
  name : String
  items : List Item
deriving DecidableEq

/-- The open blocks around the next line, the innermost first. An enum stands directly in
a message and holds no blocks. -/
inductive DraftBlocks where
  | file
  | message (block : DraftMessage) (outer : List DraftMessage)
  | enumeration (block : DraftEnum) (owner : DraftMessage) (outer : List DraftMessage)
deriving DecidableEq

/-- What the lines so far amount to: a package name, the finished declarations, and the open
blocks. -/
structure Draft where
  package : Option String
  roots : Forest
  blocks : DraftBlocks
deriving DecidableEq

/-- The draft before the first line. -/
def Draft.start : Draft := ⟨none, .nil, .file⟩

/-- A message with nothing in it yet. -/
def DraftMessage.start (name : String) : DraftMessage := ⟨name, [], .nil⟩

/-- The finished message, alone. -/
def DraftMessage.finish (block : DraftMessage) : Forest :=
  .message block.name block.fields block.nested .nil

/-- The message with one more field, unless its name or its index is taken. -/
def DraftMessage.addField (block : DraftMessage) (number : Nat) (field : Field) :
    Except Problem DraftMessage :=
  (field.addedTo block.fields block.name number).map fun fields => { block with fields }

/-- The enum with one more item, unless its name or its index is taken. -/
def DraftEnum.addItem (block : DraftEnum) (number : Nat) (item : Item) :
    Except Problem DraftEnum :=
  (item.addedTo block.items block.name number).map fun items => { block with items }

/-- The message with a finished block nested in it, after those before. -/
def DraftMessage.nest (owner : DraftMessage) (block : Forest) : DraftMessage :=
  { owner with nested := owner.nested ++ block }

namespace Draft

/-- After a line at file scope. -/
def fileLine (r : Draft) (line : Line) : Except Problem Draft :=
  match FileStatement.read? line.text with
  | none => .error (.invalidLine line.number line.text)
  | some .ignored => .ok r
  | some (.package name) =>
    if r.package.isSome then .error (.repeatedPackage line.number name)
    else .ok { r with package := some name }
  | some (.openMessage name) => .ok { r with blocks := .message (.start name) [] }

/-- After the closing line of a message. -/
def closeMessage (r : Draft) (block : DraftMessage) : List DraftMessage → Draft
  | [] => { r with roots := r.roots ++ block.finish, blocks := .file }
  | owner :: outer => { r with blocks := .message (owner.nest block.finish) outer }

/-- After a line inside a message. -/
def messageLine (r : Draft) (block : DraftMessage) (outer : List DraftMessage) (line : Line) :
    Except Problem Draft :=
  match MessageStatement.read? line.text with
  | none => .error (.invalidLine line.number line.text)
  | some .close => .ok (r.closeMessage block outer)
  | some (.openEnum name) => .ok { r with blocks := .enumeration ⟨name, []⟩ block outer }
  | some (.openMessage name) => .ok { r with blocks := .message (.start name) (block :: outer) }
  | some (.field field) =>
    (block.addField line.number field).map fun block => { r with blocks := .message block outer }

/-- After a line inside an enum. -/
def enumLine (r : Draft) (block : DraftEnum) (owner : DraftMessage) (outer : List DraftMessage)
    (line : Line) : Except Problem Draft :=
  match EnumStatement.read? line.text with
  | none => .error (.invalidLine line.number line.text)
  | some .close =>
    .ok { r with blocks := .message (owner.nest (.enumeration block.name block.items .nil)) outer }
  | some (.item item) =>
    (block.addItem line.number item).map fun block =>
      { r with blocks := .enumeration block owner outer }

/-- After one line. -/
def step (r : Draft) (line : Line) : Except Problem Draft :=
  match r.blocks with
  | .file => r.fileLine line
  | .message block outer => r.messageLine block outer line
  | .enumeration block owner outer => r.enumLine block owner outer line

/-- The document, if no block is open. -/
def finish (r : Draft) : Except Problem Document :=
  match r.blocks with
  | .file => .ok ⟨r.package, r.roots⟩
  | .message block _ => .error (.unfinishedBlock .message block.name)
  | .enumeration block .. => .error (.unfinishedBlock .enumeration block.name)

end Draft

/-- The document that lines amount to. -/
def Document.ofLines (lines : List Line) : Except Problem Document := do
  let r ← lines.foldlM Draft.step Draft.start
  r.finish

end SwiftWrap
