import SwiftWrap.Schema.Basic
import SwiftWrap.Text.Quoted

/-! What can be wrong with a schema, and how it is reported.

A problem does not know the file it was found in; the file's name is given when the
problem is put into words. -/
namespace SwiftWrap

/-- Why a schema is refused. -/
inductive Problem where
  /-- A line that its scope does not allow. -/
  | invalidLine (number : Nat) (text : String)
  /-- The source ends inside a block. -/
  | unfinishedBlock (kind : Kind) (name : String)
  | repeatedPackage (number : Nat) (package : String)
  | repeatedFieldName (number : Nat) (message name : String)
  | repeatedFieldIndex (number : Nat) (message name : String) (index : Nat)
  | repeatedItemName (number : Nat) (enumeration name : String)
  | repeatedItemIndex (number : Nat) (enumeration name : String) (index : Int)
  /-- A field's type name that nothing in its scope has. -/
  | unresolvedType (scope : List String) (field typeName : String)
  /-- A field's type name that several declarations in its nearest scope have. -/
  | ambiguousType (scope : List String) (field typeName : String)
      (candidates : List (List String))
deriving DecidableEq

/-- A chain of names as one dotted name. -/
def dotted (chain : List String) : String := ".".intercalate chain

/-- Dotted names one after another. -/
def dottedList (chains : List (List String)) : String := ", ".intercalate (chains.map dotted)

namespace Problem

/-- The name of the problem in diagnostics. -/
def label : Problem → String
  | invalidLine .. => "InvalidSyntax"
  | unfinishedBlock .. => "IncompleteBlock"
  | repeatedPackage .. => "DuplicatePackage"
  | repeatedFieldName .. => "DuplicateFieldName"
  | repeatedFieldIndex .. => "DuplicateFieldIndex"
  | repeatedItemName .. => "DuplicateEnumItemName"
  | repeatedItemIndex .. => "DuplicateEnumItemIndex"
  | unresolvedType .. => "UnresolvedType"
  | ambiguousType .. => "AmbiguousType"

/-- The problem in words. -/
def message (file : String) : Problem → String
  | invalidLine number text => s!"Invalid syntax[{file}:{number}]: {text}"
  | unfinishedBlock kind name => s!"Incomplete {kind.keyword} {name}: {file}"
  | repeatedPackage number package =>
    s!"More than one package statement[{file}:{number}]: {package}"
  | repeatedFieldName number message name =>
    s!"Duplicate message field name[{file}:{number}]: {message}.{name}"
  | repeatedFieldIndex number message name index =>
    s!"Duplicate message field index[{file}:{number}]: {message}.{name} = {index}"
  | repeatedItemName number enumeration name =>
    s!"Duplicate enum item name[{file}:{number}]: {enumeration}.{name}"
  | repeatedItemIndex number enumeration name index =>
    s!"Duplicate enum item index[{file}:{number}]: {enumeration}.{name} = {index}"
  | unresolvedType scope field typeName =>
    s!"Unresolved type {typeName} for field {dotted scope}.{field}: {file}"
  | ambiguousType scope field typeName candidates =>
    s!"Ambiguous type {typeName} for field {dotted scope}.{field}, " ++
      s!"candidates {dottedList candidates}: {file}"

/-- The parts of a problem as a diagnostic lists them after the file. -/
def parts : Problem → List (String × String)
  | invalidLine number text => [("line", toString number), ("text", Text.shown text)]
  | unfinishedBlock kind name => [("kind", kind.label), ("name", Text.shown name)]
  | repeatedPackage number package =>
    [("line", toString number), ("package", Text.shown package)]
  | repeatedFieldName number message name =>
    [("line", toString number), ("message", Text.shown message), ("name", Text.shown name)]
  | repeatedFieldIndex number message name index =>
    [("line", toString number), ("message", Text.shown message), ("name", Text.shown name),
      ("index", toString index)]
  | repeatedItemName number enumeration name =>
    [("line", toString number), ("enum_name", Text.shown enumeration),
      ("name", Text.shown name)]
  | repeatedItemIndex number enumeration name index =>
    [("line", toString number), ("enum_name", Text.shown enumeration),
      ("name", Text.shown name), ("index", toString index)]
  | unresolvedType scope field typeName =>
    [("scope", Text.shown (dotted scope)), ("field", Text.shown field),
      ("type_name", Text.shown typeName)]
  | ambiguousType scope field typeName candidates =>
    [("scope", Text.shown (dotted scope)), ("field", Text.shown field),
      ("type_name", Text.shown typeName), ("candidates", Text.shown (dottedList candidates))]

/-- The problem as a diagnostic: its name and its parts. -/
def diagnostic (file : String) (p : Problem) : String :=
  let parts := ("file", Text.shown file) :: p.parts
  p.label ++ " \x7b " ++ ", ".intercalate (parts.map fun (key, value) => s!"{key}: {value}") ++
    " \x7d"

end Problem
end SwiftWrap
