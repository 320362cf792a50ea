import SwiftWrap.Sheet
import SwiftWrap.Swift.Basic
import SwiftWrap.Text.Quoted

/-! The generated code for a schema: a banner, then the wrappers in the order of the source.

The wrapper of a message is a class. It holds one property for each field, an initializer, and the
conversions from and to the wire type. Nested declarations stand inside it. The two functions that
convert an enum stand beside it, so they are members of the class around it. -/
namespace SwiftWrap.Swift
open Script

/-! ### Enums -/

/-- A function that converts an enum case by case. -/
def converterScript (names : List String) (function source target : String) : Script :=
  braced s!"fileprivate class func {function}(_ value: {source}) -> {target}"
    (.line "switch value \x7b" ::
      (names.map fun name => .line s!"case {member name}: return {member name}") ++
      [.line "\x7d"]) ++
    [.blank]

/-- The wrapper of an enum and its two converters. -/
def enumScript (d : Declaration) (items : List Item) : Script :=
  let cases := cases items
  let names := cases.map Prod.fst
  [.line (markLine d), .blank] ++
    braced s!"@objc public enum {d.names.wrapper}: Int32"
      (cases.map fun (name, index) => .line s!"case {escaped name} = {index}") ++
    .blank ::
    converterScript names s!"{d.names.wrapper}Wrap" d.names.wire d.names.path ++
    converterScript names s!"{d.names.wrapper}Unwrap" d.names.path d.names.wire

/-! ### Properties and initializer -/

/-- The attribute in front of what Objective-C can see. -/
def objc (visible : Bool) : String := if visible then "@objc " else ""

/-- The line that declares a field's property. -/
def property (s : Schema) (f : Field) : String :=
  s!"{objc f.isObjcVisible}public let {escaped f.name}: {f.propertyType s}"

/-- The properties, one to a line. -/
def properties (s : Schema) (fields : List Field) : Script :=
  fields.map (.line <| property s ·) ++ if fields.isEmpty then [] else [.blank]

/-- The initializer. -/
def initializer (s : Schema) (fields : List Field) : Script :=
  if fields.isEmpty then braced "@objc public override init()" [] ++ [.blank]
  else
    let parameters := fields.map fun f => s!"{escaped f.name}: {f.propertyType s}"
    let visible := fields.all (·.isObjcVisible)
    braced (objc visible ++ "public " ++ call "init" (commas parameters))
      (fields.map fun f => .line s!"self.{f.name} = {escaped f.name}") ++ [.blank]

/-- The method that writes a message as bytes. -/
def serializer : Script :=
  .line "@objc" ::
    braced "public func serializedData() throws -> Data"
      [.line "return try self.asProtobuf.serializedData()"] ++ [.blank]

/-! ### From the wire -/

/-- The check that a required field is there. -/
def requiredGuard (error : String) (d : Declaration) (f : Field) : Script :=
  if f.cardinality = some .required then
    let description := Text.quoted s!"{d.names.wrapper} missing required field: {f.name}"
    braced s!"guard proto.has{Text.capitalized f.name} else"
      [.line s!"throw {error}.invalidProtobuf(description: {description})"]
  else []

/-- The local variable of a field and its value. -/
def readField (s : Schema) (f : Field) : Script :=
  let wire := s!"proto.{f.name}"
  if isConvertedList f then
    .line s!"var {readLocal f}: [{f.elementType s}] = []" ::
      braced s!"for item in {wire}"
        [.line (call (readLocal f ++ ".append") (wrapped s f "item"))]
  else if f.isList then [.line s!"let {escaped f.name} = {wire}"]
  else if f.isOptional then
    .line s!"var {escaped f.name}: {f.propertyType s} = nil" ::
      braced s!"if proto.has{Text.capitalized f.name}"
        [.line s!"{escaped f.name} = {wrapped s f wire}"]
  else [.line s!"let {escaped f.name} = {wrapped s f wire}"]

/-- The functions that read a message from bytes and from its wire type. -/
def parsers (s : Schema) (id : Nat) (d : Declaration) : Script :=
  let arguments := d.fields.map fun f => s!"{f.name}: {readLocal f}"
  .line "@objc" ::
    braced s!"public class func parseData(_ serializedData: Data) throws -> {d.names.path}"
      [.line s!"let proto = try {d.names.wire}(serializedData: serializedData)",
        .line "return try parseProto(proto)"] ++
    .blank ::
    braced s!"fileprivate class func parseProto(_ proto: {d.names.wire}) throws -> {d.names.path}"
      ((d.fields.flatMap fun f =>
          requiredGuard (errorRef s id) d f ++ readField s f ++ [.blank]) ++
        [.line ("return " ++ call d.names.path (commas arguments))]) ++
    [.blank]

/-! ### To the wire -/

/-- The assignment of a field to the builder of the wire type. -/
def buildField (s : Schema) (f : Field) : Script :=
  if f.isList then
    .line s!"var {f.name}Unwrapped = [{f.wireType s}]()" ::
      braced s!"for item in self.{f.name}"
        [.line (call (f.name ++ "Unwrapped.append") (unwrapped s f "item"))] ++
      [.line s!"builder.{f.name} = {f.name}Unwrapped"]
  else if f.isOptional then
    braced s!"if let {escaped f.name} = self.{f.name}"
      [.line s!"builder.{f.name} = {unwrapped s f (escaped f.name)}"]
  else [.line (s!"builder.{f.name} = " ++ unwrapped s f s!"self.{f.name}")]

/-- The wire value of a message. -/
def builder (s : Schema) (d : Declaration) : Script :=
  braced s!"fileprivate var asProtobuf: {d.names.wire}"
    (if d.fields.isEmpty then [.line s!"return {d.names.wire}()"]
      else
        [.line (s!"let proto = {d.names.wire}.with " ++ "\x7b (builder) in"), .indent] ++
          (d.fields.flatMap fun f => buildField s f ++ [.blank]) ++
          [.strip, .dedent, .line "\x7d", .blank, .line "return proto"]) ++
    [.blank]

/-! ### The class -/

/-- The error type, which only an outermost message has. -/
def errorEnum (d : Declaration) : Script :=
  if d.parent.isNone then
    braced s!"public enum {d.names.wrapper}Error: Error"
      [.line "case invalidProtobuf(description: String)"] ++ [.blank]
  else []

/-- The wrapper class of a message around the script of its nested declarations. -/
def messageScript (s : Schema) (id : Nat) (d : Declaration) (nested : Script) : Script :=
  [.line (markLine d), .blank] ++
    braced s!"@objc public class {d.names.wrapper}: NSObject"
      (.blank :: errorEnum d ++ nested ++ properties s d.fields ++ initializer s d.fields ++
        serializer ++ parsers s id d ++ builder s d ++ [.strip]) ++
    [.blank]

/-! ### Schemas -/

/-- A declaration around the script of its nested declarations. -/
def declarationScript (s : Schema) (id : Nat) (d : Declaration) (nested : Script) : Script :=
  match d.body with
  | .message .. => messageScript s id d nested
  | .enumeration items => enumScript d items

/-- The lines at the top of a generated file. -/
def banner : String :=
  "//\n//  Generated by protowrap. Do not edit.\n//\n\nimport Foundation\nimport SwiftProtobuf\n"

/-- The wrappers for a schema. -/
def script (s : Schema) : Script :=
  .lines banner :: s.roots.flatMap fun root => s.collect (declarationScript s) root

/-- The generated code for a schema. -/
def code (s : Schema) : String := (script s).text

end SwiftWrap.Swift
