import SwiftWrap.Schema.Basic

/-! Building a schema step by step.

A declaration gets the next number and names its parent; the parent adopts it when it is
finished, and lists it after those it adopted before. -/
namespace SwiftWrap.Schema

/-- The schema with a new declaration that nothing lists yet. Its number is the number of
declarations before it. -/
def declare (s : Schema) (parent : Option Nat) (name : String) (kind : Kind) : Schema :=
  { s with declarations := s.declarations ++ [⟨name, parent, .empty kind, .none⟩] }

/-- The schema with a declaration listed by its parent, or at file scope if it has none.
An enum lists no children. -/
def adopt (s : Schema) (id : Nat) : Schema :=
  match s.get? id with
  | none => s
  | some d =>
    match d.parent with
    | none => { s with roots := s.roots ++ [id] }
    | some parent => s.modify parent fun p => { p with body := p.body.addChild id }

/-- The schema under another package name, or under none. -/
def setPackage (s : Schema) (package : Option String) : Schema := { s with package }

/-- The message with the fields it has been found to hold. -/
def setFields (s : Schema) (id : Nat) (fields : List Field) : Schema :=
  s.modify id fun d => { d with body := d.body.mapFields fun _ => fields }

/-- The enum with the items it has been found to hold. -/
def setItems (s : Schema) (id : Nat) (items : List Item) : Schema :=
  s.modify id fun d => { d with body := d.body.mapItems fun _ => items }

/-- The message with one more field. -/
def addField (s : Schema) (id : Nat) (field : Field) : Schema :=
  s.modify id fun d => { d with body := d.body.mapFields (· ++ [field]) }

/-- The enum with one more item. -/
def addItem (s : Schema) (id : Nat) (item : Item) : Schema :=
  s.modify id fun d => { d with body := d.body.mapItems (· ++ [item]) }

/-- The message with the type of one of its fields set. -/
def setFieldType (s : Schema) (id : Nat) (position : Nat) (type : TypeRef) : Schema :=
  s.modify id fun d =>
    { d with body := d.body.mapFields (·.modify position fun f => { f with type }) }

end SwiftWrap.Schema
