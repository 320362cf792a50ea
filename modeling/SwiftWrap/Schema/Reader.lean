import SwiftWrap.Problem
import SwiftWrap.Schema.Edit
import SwiftWrap.Source

/-! From lines to a schema.

A reader takes one line at a time. It holds the schema so far and the blocks that are still
open. An opening line declares: the declaration gets its number and names its parent, and
nothing lists it yet. What is read inside a block is kept beside the schema. The closing
line puts it into the declaration, which its parent then adopts.

What a line does depends on the lines before it alone, so an error blames the first line
that cannot be continued. -/
namespace SwiftWrap

/-- A message whose closing line has not been read: its number, and its fields so far. -/
structure OpenMessage where
  id : Nat
  name : String
  fields : List Field
deriving DecidableEq

/-- An enum whose closing line has not been read: its number, and its items so far. -/
structure OpenEnum where
  id : Nat
  name : String
  items : List Item
deriving DecidableEq

/-- The open blocks around the next line, the innermost first. An enum stands directly in
a message and holds no blocks. -/
inductive OpenBlocks where
  | file
  | message (block : OpenMessage) (outer : List OpenMessage)
  | enumeration (block : OpenEnum) (owner : OpenMessage) (outer : List OpenMessage)
deriving DecidableEq

/-- The open blocks around the next line, if all of them are messages. -/
def OpenBlocks.messages : List OpenMessage → OpenBlocks
  | [] => file
  | block :: outer => message block outer

/-- What the lines so far amount to: a schema, and the blocks open in it. -/
structure Reader where
  schema : Schema
  blocks : OpenBlocks
deriving DecidableEq

/-- A reader before the first line. -/
def Reader.start : Reader := ⟨.empty, .file⟩

/-! ### What a block cannot hold twice -/

/-- The fields of a message and one more, unless its name or its index is taken. -/
def Field.addedTo (fields : List Field) (message : String) (number : Nat) (field : Field) :
    Except Problem (List Field) :=
  if fields.any (·.name == field.name) then
    .error (.repeatedFieldName number message field.name)
  else if fields.any (·.index == field.index) then
    .error (.repeatedFieldIndex number message field.name field.index)
  else .ok (fields ++ [field])

/-- The items of an enum and one more, unless its name or its index is taken. -/
def Item.addedTo (items : List Item) (enumeration : String) (number : Nat) (item : Item) :
    Except Problem (List Item) :=
  if items.any (·.name == item.name) then
    .error (.repeatedItemName number enumeration item.name)
  else if items.any (·.index == item.index) then
    .error (.repeatedItemIndex number enumeration item.name item.index)
  else .ok (items ++ [item])

/-- The message with one more field. -/
def OpenMessage.addField (block : OpenMessage) (number : Nat) (field : Field) :
    Except Problem OpenMessage :=
  (field.addedTo block.fields block.name number).map fun fields => { block with fields }

/-- The enum with one more item. -/
def OpenEnum.addItem (block : OpenEnum) (number : Nat) (item : Item) : Except Problem OpenEnum :=
  (item.addedTo block.items block.name number).map fun items => { block with items }

namespace Reader

/-! ### Opening and closing -/

/-- The number of the innermost of some messages. -/
def innermost (messages : List OpenMessage) : Option Nat := messages.head?.map (·.id)

/-- After the opening line of a message inside others. -/
def openMessage (s : Schema) (name : String) (outer : List OpenMessage) : Reader :=
  ⟨s.declare (innermost outer) name .message, .message ⟨s.declarations.length, name, []⟩ outer⟩

/-- After the opening line of an enum. -/
def openEnum (s : Schema) (name : String) (owner : OpenMessage) (outer : List OpenMessage) :
    Reader :=
  ⟨s.declare (some owner.id) name .enumeration,
    .enumeration ⟨s.declarations.length, name, []⟩ owner outer⟩

/-- After the closing line of a message. -/
def closeMessage (s : Schema) (block : OpenMessage) (outer : List OpenMessage) : Reader :=
  ⟨(s.setFields block.id block.fields).adopt block.id, .messages outer⟩

/-- After the closing line of an enum. -/
def closeEnum (s : Schema) (block : OpenEnum) (owner : OpenMessage) (outer : List OpenMessage) :
    Reader :=
  ⟨(s.setItems block.id block.items).adopt block.id, .message owner outer⟩

/-! ### Lines -/

/-- After a line at file scope. -/
def fileLine (s : Schema) (line : Line) : Except Problem Reader :=
  match FileStatement.read? line.text with
  | none => .error (.invalidLine line.number line.text)
  | some .ignored => .ok ⟨s, .file⟩
  | some (.package name) =>
    if s.package.isSome then .error (.repeatedPackage line.number name)
    else .ok ⟨s.setPackage (some name), .file⟩
  | some (.openMessage name) => .ok (openMessage s name [])

/-- After a line inside a message. -/
def messageLine (s : Schema) (block : OpenMessage) (outer : List OpenMessage) (line : Line) :
    Except Problem Reader :=
  match MessageStatement.read? line.text with
  | none => .error (.invalidLine line.number line.text)
  | some .close => .ok (closeMessage s block outer)
  | some (.openEnum name) => .ok (openEnum s name block outer)
  | some (.openMessage name) => .ok (openMessage s name (block :: outer))
  | some (.field field) =>
    (block.addField line.number field).map fun block => ⟨s, .message block outer⟩

/-- After a line inside an enum. -/
def enumLine (s : Schema) (block : OpenEnum) (owner : OpenMessage) (outer : List OpenMessage)
    (line : Line) : Except Problem Reader :=
  match EnumStatement.read? line.text with
  | none => .error (.invalidLine line.number line.text)
  | some .close => .ok (closeEnum s block owner outer)
  | some (.item item) =>
    (block.addItem line.number item).map fun block => ⟨s, .enumeration block owner outer⟩

/-- After one line. -/
def step (r : Reader) (line : Line) : Except Problem Reader :=
  match r.blocks with
  | .file => fileLine r.schema line
  | .message block outer => messageLine r.schema block outer line
  | .enumeration block owner outer => enumLine r.schema block owner outer line

/-- The schema, if no block is open. -/
def finish (r : Reader) : Except Problem Schema :=
  match r.blocks with
  | .file => .ok r.schema
  | .message block _ => .error (.unfinishedBlock .message block.name)
  | .enumeration block .. => .error (.unfinishedBlock .enumeration block.name)

end Reader

/-- The schema that lines hold. -/
def Schema.ofLines (lines : List Line) : Except Problem Schema := do
  let r ← lines.foldlM Reader.step Reader.start
  r.finish

end SwiftWrap
