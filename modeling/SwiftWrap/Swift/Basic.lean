import SwiftWrap.Schema.Traversal
import SwiftWrap.Text.Case

/-! Names, types and references in generated code.

Reserved words are escaped where they stand for names, and enum items are spelled as cases.
Integers, booleans and enums always have a usable value, so an optional field of such a
type is no optional property. Values are converted from the wire and back by functions of the
generated declarations. -/
namespace SwiftWrap

namespace Swift

/-! ### Identifiers -/

/-- Words that cannot stand for a name as they are. -/
def reservedWords : List String := [
  "associatedtype", "class", "deinit", "enum", "extension", "fileprivate", "func", "import",
  "init", "inout", "internal", "let", "open", "operator", "private", "protocol", "public",
  "rethrows", "static", "struct", "subscript", "typealias", "var", "break", "case", "continue",
  "default", "defer", "do", "else", "fallthrough", "for", "guard", "if", "in", "repeat",
  "return", "switch", "where", "while", "as", "Any", "catch", "false", "is", "nil", "super",
  "self", "Self", "throw", "throws", "true", "try"]

/-- Whether a word is reserved. -/
def isReserved (word : String) : Bool := reservedWords.contains word

/-- A word in backticks. -/
def ticked (word : String) : String := "`" ++ word ++ "`"

/-- A name as it can be written anywhere. -/
def escaped (name : String) : String := if isReserved name then ticked name else name

/-- Words that stay reserved after a dot. -/
def reservedMembers : List String := ["init", "self", "Self", "Type", "Protocol"]

/-- A reference to a member of a type that is known from the context. -/
def member (name : String) : String :=
  "." ++ if reservedMembers.contains name then ticked name else name

/-- The case that stands for an item. -/
def itemCase (item : String) : String := Text.camelCase item

/-- Items in ascending order of their indices, those with the same index in the order of
the source. -/
def byIndex (items : List Item) : List Item := items.mergeSort fun a b => a.index ≤ b.index

/-- The cases of an enum with their values, in the order in which they are written. -/
def cases (items : List Item) : List (String × Int) :=
  (byIndex items).map fun item => (itemCase item.name, item.index)

end Swift

/-! ### The types of properties -/

/-- The type of a property that holds a scalar. -/
def Scalar.propertyType : Scalar → String
  | string => "String"
  | uint64 => "UInt64"
  | uint32 => "UInt32"
  | fixed64 => "UInt64"
  | bool => "Bool"
  | bytes => "Data"

namespace Field

def isList (f : Field) : Bool := f.cardinality == some .repeated

def holdsEnum (f : Field) : Bool :=
  match f.type with
  | .enumeration _ => true
  | _ => false

def holdsMessage (f : Field) : Bool :=
  match f.type with
  | .message _ => true
  | _ => false

/-- Whether an optional field of this type becomes an optional property. -/
def hasOptionalForm (f : Field) : Bool :=
  match f.type with
  | .scalar .uint64 | .scalar .uint32 | .scalar .fixed64 | .scalar .bool => false
  | .enumeration _ => false
  | _ => true

/-- Whether the property may be nil. -/
def isOptional (f : Field) : Bool := f.cardinality == some .optional && f.hasOptionalForm

/-- Whether the property can be seen from Objective-C, which has no arrays of enums. -/
def isObjcVisible (f : Field) : Bool := !(f.isList && f.holdsEnum)

/-- The type of one value of the field. A type that is not resolved stands for itself. -/
def elementType (s : Schema) (f : Field) : String :=
  match f.type with
  | .scalar type => type.propertyType
  | .enumeration target => s.pathOf target
  | .message target => s.pathOf target
  | .unresolved => f.typeName

/-- The type of the property. -/
def propertyType (s : Schema) (f : Field) : String :=
  if f.isList then "[" ++ f.elementType s ++ "]"
  else if f.isOptional then f.elementType s ++ "?"
  else f.elementType s

/-- The type of one value of the field on the wire. -/
def wireType (s : Schema) (f : Field) : String :=
  match f.type with
  | .enumeration target => s.wireOf target
  | .message target => s.wireOf target
  | _ => f.elementType s

end Field

namespace Swift

/-! ### References and conversions -/

/-- A call with one argument text. -/
def call (function arguments : String) : String := function ++ "(" ++ arguments ++ ")"

/-- Texts in a row, with commas between them. -/
def commas (texts : List String) : String := ", ".intercalate texts

/-- The function that converts an enum, seen from file scope. -/
def converterRef (s : Schema) (id : Nat) (suffix : String) : String :=
  s.viewAt id "" fun d =>
    match d.parent with
    | some parent => s.pathOf parent ++ "." ++ d.names.wrapper ++ suffix
    | none => d.names.wrapper ++ suffix

/-- The error type of the outermost message around a declaration. -/
def errorRef (s : Schema) (id : Nat) : String :=
  s.viewAt ((s.enclosing id).getLast?.getD id) "" fun top =>
    s!"{top.names.path}.{top.names.wrapper}Error"

/-- A value from the wire as a value of the wrapper. -/
def wrapped (s : Schema) (f : Field) (value : String) : String :=
  match f.type with
  | .message target => "try " ++ call (s.pathOf target ++ ".parseProto") value
  | .enumeration target => call (converterRef s target "Wrap") value
  | .scalar _ | .unresolved => value

/-- A value of the wrapper as a value on the wire. -/
def unwrapped (s : Schema) (f : Field) (value : String) : String :=
  match f.type with
  | .message _ => value ++ ".asProtobuf"
  | .enumeration target => call (converterRef s target "Unwrap") value
  | .scalar _ | .unresolved => value

/-- Whether the values of a field are converted one by one when a message is read. -/
def isConvertedList (f : Field) : Bool := f.isList && (f.holdsMessage || f.holdsEnum)

/-- The local variable that holds a field's value while a message is read. -/
def readLocal (f : Field) : String :=
  if isConvertedList f then f.name ++ "Wrapped" else escaped f.name

/-- The comment line above a declaration. -/
def markLine (d : Declaration) : String := s!"// MARK: - {d.names.wrapper}"

end Swift

end SwiftWrap
