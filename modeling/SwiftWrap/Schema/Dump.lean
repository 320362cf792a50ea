import SwiftWrap.Schema.Basic
import SwiftWrap.Text.Quoted

/-! A schema as an interchange value, with everything that is in it.

In the text of a value, members stay in the order in which they are given. Every element and
member has a line of its own, two spaces deeper than what it stands in. -/
namespace SwiftWrap

/-! ### Interchange values -/

/-- An interchange value. -/
inductive Json where
  | null
  | bool (value : Bool)
  | number (value : Int)
  | string (value : String)
  | array (elements : List Json)
  | object (members : List (String × Json))

namespace Json

/-- The start of a new line at a depth. -/
def lineStart (depth : Nat) : String := .ofList ('\n' :: List.replicate (2 * depth) ' ')

mutual

/-- The text of a value that stands at a depth. -/
def pretty (depth : Nat) : Json → String
  | null => "null"
  | bool true => "true"
  | bool false => "false"
  | number n => toString n
  | string s => Text.quoted s
  | array [] => "[]"
  | array (x :: xs) =>
    "[" ++ lineStart (depth + 1) ++ x.pretty (depth + 1) ++ prettyElements depth xs
  | object [] => "\x7b\x7d"
  | object ((key, x) :: xs) =>
    "\x7b" ++ lineStart (depth + 1) ++ Text.quoted key ++ ": " ++ x.pretty (depth + 1) ++
      prettyMembers depth xs

/-- The remaining elements of an array that stands at a depth, and its end. -/
def prettyElements (depth : Nat) : List Json → String
  | [] => lineStart depth ++ "]"
  | x :: xs => "," ++ lineStart (depth + 1) ++ x.pretty (depth + 1) ++ prettyElements depth xs

/-- The remaining members of an object that stands at a depth, and its end. -/
def prettyMembers (depth : Nat) : List (String × Json) → String
  | [] => lineStart depth ++ "\x7d"
  | (key, x) :: xs =>
    "," ++ lineStart (depth + 1) ++ Text.quoted key ++ ": " ++ x.pretty (depth + 1) ++
      prettyMembers depth xs

end

/-- The text of a value. -/
def text (value : Json) : String := value.pretty 0

/-- A value that may be absent. -/
def ofOption (encode : α → Json) : Option α → Json
  | some a => encode a
  | none => null

end Json

/-! ### Schemas -/

/-- The number of a declaration. -/
def Json.id (n : Nat) : Json := .number n

def TypeRef.toJson : TypeRef → Json
  | scalar type => .object [("Primitive", .string type.label)]
  | enumeration target => .object [("Enum", .id target)]
  | message target => .object [("Message", .id target)]
  | unresolved => .string "Unresolved"

def Field.toJson (f : Field) : Json := .object [
  ("name", .string f.name),
  ("index", .number f.index),
  ("presence", .ofOption (.string ·.label) f.cardinality),
  ("type_name", .string f.typeName),
  ("default", .ofOption .bool f.default),
  ("resolved", f.type.toJson)]

def Item.toJson (i : Item) : Json := .object [
  ("name", .string i.name),
  ("index", .number i.index)]

def Body.toJson : Body → Json
  | message children fields => .object [("Message", .object [
      ("children", .array (children.map .id)),
      ("fields", .array (fields.map Field.toJson))])]
  | enumeration items => .object [("Enum", .object [
      ("items", .array (items.map Item.toJson))])]

def Declaration.toJson (d : Declaration) : Json := .object [
  ("name", .string d.name),
  ("parent", .ofOption .id d.parent),
  ("body", d.body.toJson),
  ("output_name", .string d.names.wrapper),
  ("swift_path", .string d.names.path),
  ("wire_name", .string d.names.wire)]

namespace Schema

def toJson (s : Schema) : Json := .object [
  ("package", .ofOption .string s.package),
  ("roots", .array (s.roots.map .id)),
  ("decls", .array (s.declarations.map Declaration.toJson))]

/-- The schema as text for other programs. -/
def dump (s : Schema) : String := s.toJson.text

end Schema

end SwiftWrap
