import SwiftWrap.Problem
import SwiftWrap.Schema.Traversal
import SwiftWrap.Text.Case

/-! Linking a schema: every listed declaration gets its names for generated code, and every
type name gets the declaration it refers to.

A wrapper is named by a prefix and the capitalized names of the chain that leads to it. The
type it wraps is named by the dotted chain behind a prefix of its own.

Names come first and cannot fail. Types are resolved declaration by declaration, parents
first; the first type that does not resolve ends it, and what was done before stays. -/
namespace SwiftWrap

/-! ### The names of generated types -/

/-- What generated names begin with: those of wrappers, and those of the types they wrap. -/
structure Prefixes where
  wrapper : String
  wire : String
deriving DecidableEq

/-- The wire types call an enum of this name something else, since a type's own metatype
already has the name. -/
def renamedEnum : String := "Type"

/-- What is added to the name of such an enum. -/
def renamedEnumSuffix : String := "Enum"

/-- A chain with the last name as the wire types have it. -/
def wireChain (kind : Kind) : List String → List String
  | [] => []
  | [last] =>
    [if kind = .enumeration && last == renamedEnum then last ++ renamedEnumSuffix else last]
  | name :: rest => name :: wireChain kind rest

namespace Prefixes

/-- The name of the wrapper for a chain. -/
def wrapperName (p : Prefixes) (chain : List String) : String :=
  p.wrapper ++ String.join (chain.map Text.capitalized)

/-- The dotted name of the wrapped type. -/
def wireName (p : Prefixes) (kind : Kind) (chain : List String) : String :=
  let name := dotted (wireChain kind chain)
  if p.wire.isEmpty then name else s!"{p.wire}_{name}"

/-- The name of the generated file. -/
def fileName (p : Prefixes) : String := p.wrapper ++ ".swift"

end Prefixes

/-! ### The schema and its problem -/

/-- The schema with what could be linked, and the problem that ended it. -/
structure Linking where
  schema : Schema
  problem : Option Problem
deriving DecidableEq

namespace Schema

/-! ### Names -/

/-- The path of a declaration: its wrapper's name behind the path of its parent. -/
def pathUnder (s : Schema) (parent : Option Nat) (wrapper : String) : String :=
  match parent with
  | some parent => s.pathOf parent ++ "." ++ wrapper
  | none => wrapper

/-- The schema with one declaration named. Its parent is to be named before it. -/
def assignNames (p : Prefixes) (s : Schema) (id : Nat) : Schema :=
  let chain := s.nameChain id
  let wrapper := p.wrapperName chain
  s.modify id fun d =>
    { d with names := ⟨wrapper, s.pathUnder d.parent wrapper, p.wireName d.kind chain⟩ }

/-- The schema with every listed declaration named. -/
def withNames (s : Schema) (p : Prefixes) : Schema := s.listed.foldl (assignNames p) s

/-! ### Types -/

/-- A reference to a declaration, by its kind. -/
def refTo (s : Schema) (target : Nat) : TypeRef :=
  s.viewAt target .unresolved fun d =>
    match d.kind with
    | .message => .message target
    | .enumeration => .enumeration target

/-- The type of a field of a message. A type that is known already stays. -/
def linkType (s : Schema) (id : Nat) (f : Field) : Except Problem TypeRef :=
  match f.type with
  | .unresolved =>
    match s.resolve id f.typeName with
    | .found target => .ok (s.refTo target)
    | .ambiguous candidates =>
      .error (.ambiguousType (s.nameChain id) f.name f.typeName (candidates.map s.nameChain))
    | .missing => .error (.unresolvedType (s.nameChain id) f.name f.typeName)
  | type => .ok type

/-- The fields of a message with their types, or the first problem among them. -/
def linkFields (s : Schema) (id : Nat) : List Field → Except Problem (List Field)
  | [] => .ok []
  | f :: rest => do
    let type ← s.linkType id f
    let rest ← s.linkFields id rest
    return { f with type } :: rest

/-- The schema with the types of some declarations resolved, up to the first problem. -/
def linkAll (s : Schema) : List Nat → Linking
  | [] => ⟨s, none⟩
  | id :: rest =>
    match s.linkFields id (s.viewAt id [] Declaration.fields) with
    | .ok fields =>
      (s.modify id fun d => { d with body := d.body.mapFields fun _ => fields }).linkAll rest
    | .error problem => ⟨s, some problem⟩

/-- The schema with its names and types. -/
def link (s : Schema) (p : Prefixes) : Linking := (s.withNames p).linkAll s.listed

end Schema

end SwiftWrap
