/-! Schemas: messages and enums, nested in messages, with their fields and items.

A schema keeps its declarations in one list and links them by their numbers, which are
their positions in it: each declaration names its parent, and each message lists its
children. A declaration gets its number when its block opens and is listed by its parent
when the block closes, so it may be there before anything lists it. -/
namespace SwiftWrap

/-- The two kinds of declaration. -/
inductive Kind where
  | message
  | enumeration
deriving DecidableEq

namespace Kind

/-- The word that opens a block of this kind. -/
def keyword : Kind → String
  | message => "message"
  | enumeration => "enum"

/-- The name of the kind in diagnostics. -/
def label : Kind → String
  | message => "Message"
  | enumeration => "Enum"

end Kind

/-- How often a field occurs. -/
inductive Cardinality where
  | required
  | optional
  | repeated
deriving DecidableEq

namespace Cardinality

/-- The word in front of a field. -/
def keyword : Cardinality → String
  | required => "required"
  | optional => "optional"
  | repeated => "repeated"

/-- The name of the cardinality in a dump. -/
def label : Cardinality → String
  | required => "Required"
  | optional => "Optional"
  | repeated => "Repeated"

def all : List Cardinality := [required, optional, repeated]

/-- The cardinality that a word stands for. -/
def ofKeyword? (word : String) : Option Cardinality := all.find? (·.keyword == word)

end Cardinality

/-- The types that need no declaration. -/
inductive Scalar where
  | string
  | uint64
  | uint32
  | fixed64
  | bool
  | bytes
deriving DecidableEq

namespace Scalar

/-- The type's name in a schema. -/
def spelling : Scalar → String
  | string => "string"
  | uint64 => "uint64"
  | uint32 => "uint32"
  | fixed64 => "fixed64"
  | bool => "bool"
  | bytes => "bytes"

/-- The type's name in a dump. -/
def label : Scalar → String
  | string => "String"
  | uint64 => "Uint64"
  | uint32 => "Uint32"
  | fixed64 => "Fixed64"
  | bool => "Bool"
  | bytes => "Bytes"

def all : List Scalar := [string, uint64, uint32, fixed64, bool, bytes]

/-- The scalar that a type name stands for. -/
def ofSpelling? (name : String) : Option Scalar := all.find? (·.spelling == name)

end Scalar

/-- What a field's type name refers to. -/
inductive TypeRef where
  | scalar (type : Scalar)
  | enumeration (target : Nat)
  | message (target : Nat)
  | unresolved
deriving DecidableEq

/-- A field of a message. -/
structure Field where
  name : String
  index : Nat
  cardinality : Option Cardinality
  /-- The type as it is written. -/
  typeName : String
  default : Option Bool
  type : TypeRef
deriving DecidableEq

namespace Field

/-- What a type name refers to before any declaration is looked up. -/
def initialType (typeName : String) : TypeRef :=
  match Scalar.ofSpelling? typeName with
  | some type => .scalar type
  | none => .unresolved

/-- A field as it is declared. -/
def declare (cardinality : Option Cardinality) (typeName name : String) (index : Nat)
    (default : Option Bool) : Field :=
  ⟨name, index, cardinality, typeName, default, initialType typeName⟩

end Field

/-- An item of an enum. -/
structure Item where
  name : String
  index : Int
deriving DecidableEq

/-- What a declaration holds, in the order of the source. -/
inductive Body where
  | message (children : List Nat) (fields : List Field)
  | enumeration (items : List Item)
deriving DecidableEq

/-- The names under which a declaration appears in generated code: the wrapper's own name,
its dotted path from file scope, and the dotted name of the type it wraps. -/
structure Names where
  wrapper : String
  path : String
  wire : String
deriving DecidableEq

/-- No names yet. -/
def Names.none : Names := ⟨"", "", ""⟩

/-- A message or an enum. -/
structure Declaration where
  name : String
  parent : Option Nat
  body : Body
  names : Names
deriving DecidableEq

namespace Body

/-- The body of a declaration that has just been opened. -/
def empty : Kind → Body
  | .message => .message [] []
  | .enumeration => .enumeration []

def kind : Body → Kind
  | message .. => .message
  | enumeration _ => .enumeration

/-- Nested declarations; an enum has none. -/
def children : Body → List Nat
  | message children _ => children
  | enumeration _ => []

/-- The fields of a message; an enum has none. -/
def fields : Body → List Field
  | message _ fields => fields
  | enumeration _ => []

/-- The items of an enum; a message has none. -/
def items : Body → List Item
  | message .. => []
  | enumeration items => items

/-- A message with one more child. An enum takes no children and stays as it is. -/
def addChild (child : Nat) : Body → Body
  | message children fields => message (children ++ [child]) fields
  | enumeration items => enumeration items

/-- A message with its fields changed. -/
def mapFields (change : List Field → List Field) : Body → Body
  | message children fields => message children (change fields)
  | enumeration items => enumeration items

/-- An enum with its items changed. -/
def mapItems (change : List Item → List Item) : Body → Body
  | message children fields => message children fields
  | enumeration items => enumeration (change items)

end Body

namespace Declaration

def kind (d : Declaration) : Kind := d.body.kind

def children (d : Declaration) : List Nat := d.body.children

def fields (d : Declaration) : List Field := d.body.fields

def items (d : Declaration) : List Item := d.body.items

end Declaration

/-- A package name, the declarations at file scope, and all declarations. -/
structure Schema where
  package : Option String
  roots : List Nat
  declarations : List Declaration
deriving DecidableEq

namespace Schema

/-- The schema without declarations. -/
def empty : Schema := ⟨none, [], []⟩

/-- The declaration with a given number. -/
def get? (s : Schema) (id : Nat) : Option Declaration := s.declarations[id]?

/-- A property of the declaration with a given number, or a default if there is none. -/
def viewAt (s : Schema) (id : Nat) (otherwise : α) (view : Declaration → α) : α :=
  match s.get? id with
  | some d => view d
  | none => otherwise

/-- The name of a declaration. -/
def nameOf (s : Schema) (id : Nat) : String := s.viewAt id "" (·.name)

/-- The path of a declaration's wrapper. -/
def pathOf (s : Schema) (id : Nat) : String := s.viewAt id "" (·.names.path)

/-- The name of the type that a declaration's wrapper wraps. -/
def wireOf (s : Schema) (id : Nat) : String := s.viewAt id "" (·.names.wire)

/-- The schema with one declaration changed. -/
def modify (s : Schema) (id : Nat) (change : Declaration → Declaration) : Schema :=
  { s with declarations := s.declarations.modify id change }

end Schema
end SwiftWrap
