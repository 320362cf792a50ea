import SwiftWrap.Proofs.Wording

/-! What the wrappers of declarations tell.

For each part of a wrapper there is one theorem that says which marks its lines have, from what
is known of the names that stand in them: `Field.Spelled` and `Declaration.Spelled`. They are
put together in `writes_messageScript` and `writes_enumScript`, which leave open what is nested
in a message. -/
namespace SwiftWrap
open Text Code

/-! ### Names that stand in lines -/

namespace Code

/-- A token that is not empty can fill a gap in a line. -/
theorem Filler.of_token {text : String} (h : AllOf isToken text) (hne : text ≠ "") :
    Filler text := by
  have hink {c : Char} (hc : c ∈ text.toList) : (!isBlank c) = true := by
    rw [token_not_blank (h.mem hc)]
    rfl
  refine ⟨h.mono fun _ => isQuiet_of_isToken, ?_, ?_⟩
  · cases htext : text.toList.head? with
    | none => exact absurd (String.toList_eq_nil_iff.1 (List.head?_eq_none_iff.1 htext)) hne
    | some c => simpa [Code.begins, htext] using hink (List.mem_of_mem_head? htext)
  · cases htext : text.toList.getLast? with
    | none => exact absurd (String.toList_eq_nil_iff.1 (List.getLast?_eq_none_iff.1 htext)) hne
    | some c => simpa [Code.ends, htext] using hink (List.mem_of_getLast? htext)

theorem Filler.of_ref {text : String} (h : AllOf isRef text) (hne : text ≠ "") : Filler text :=
  .of_token h.token hne

/-- Fillers in a row are a filler. -/
theorem Filler.append {first second : String} (h : Filler first) (h' : Filler second) :
    Filler (first ++ second) where
  quiet := allOf_append.2 ⟨h.quiet, h'.quiet⟩
  begins := begins_append h.begins second
  ends := ends_append first h'.ends

end Code

/-- The names of a field can stand in generated code. -/
structure Field.Spelled (s : Schema) (f : Field) : Prop where
  name : AllOf isLetter f.name
  name_ne : f.name ≠ ""
  element : AllOf isRef (f.elementType s)
  element_ne : f.elementType s ≠ ""
  wire : AllOf isRef (f.wireType s)
  wire_ne : f.wireType s ≠ ""
  converter : ∀ target, f.type = .enumeration target → ∀ suffix ∈ ["Wrap", "Unwrap"],
    AllOf isRef (Swift.converterRef s target suffix)

/-- The names of a declaration can stand in generated code. -/
structure Declaration.Spelled (d : Declaration) : Prop where
  wrapper : AllOf isLetter d.names.wrapper
  wrapper_ne : d.names.wrapper ≠ ""
  path : AllOf isRef d.names.path
  path_ne : d.names.path ≠ ""
  wire : AllOf isRef d.names.wire
  wire_ne : d.names.wire ≠ ""

namespace Field.Spelled
variable {s : Schema} {f : Field} (h : f.Spelled s)
include h

/-- The name of a field can stand in any gap. -/
theorem filler_name : Filler f.name := .of_ref h.name.ref h.name_ne

theorem allOf_escaped : AllOf isName (Swift.escaped f.name) := Swift.allOf_escaped h.name

/-- So can the same name where it is escaped. -/
theorem filler_escaped : Filler (Swift.escaped f.name) :=
  .of_token (h.allOf_escaped.mono fun _ => isToken_of_isName) (Swift.escaped_ne_empty h.name_ne)

theorem filler_capitalized : Filler (capitalized f.name) :=
  .of_ref h.name.capitalized.ref (capitalized_ne_empty h.name_ne)

theorem filler_element : Filler (f.elementType s) := .of_ref h.element h.element_ne

theorem filler_wire : Filler (f.wireType s) := .of_ref h.wire h.wire_ne

/-- And so can the type of its property, with its brackets or its question mark. -/
theorem filler_type : Filler (f.propertyType s) := by
  have hbracket : AllOf isToken "[" ∧ AllOf isToken "]" ∧ AllOf isToken "?" := by decide
  rw [propertyType]
  split
  · exact .of_token (by simp [hbracket, h.element.token]) (by simp)
  · split
    · exact .of_token (by simp [hbracket, h.element.token]) (by simp)
    · exact h.filler_element

theorem filler_local : Filler (Swift.readLocal f) := by
  rw [Swift.readLocal]
  split
  · exact h.filler_name.append (by constructor <;> decide)
  · exact h.filler_escaped

/-- What a path is made of is all there is in a type, but for brackets and question mark. -/
theorem filter_type : String.ofList ((f.propertyType s).toList.filter isRef) = f.elementType s := by
  have helement : (f.elementType s).toList.filter isRef = (f.elementType s).toList :=
    List.filter_eq_self.2 fun c hc => h.element.mem hc
  have hbracket : "[".toList.filter isRef = [] ∧ "]".toList.filter isRef = [] ∧
      "?".toList.filter isRef = [] := by
    decide
  rw [propertyType]
  split
  · simp only [String.toList_append, List.filter_append, helement, hbracket, List.nil_append,
      List.append_nil, String.ofList_toList]
  · split
    · simp only [String.toList_append, List.filter_append, helement, hbracket, List.append_nil,
        String.ofList_toList]
    · rw [helement, String.ofList_toList]

end Field.Spelled

theorem Declaration.Spelled.filler_path {d : Declaration} (h : d.Spelled) : Filler d.names.path :=
  .of_ref h.path h.path_ne

theorem Declaration.Spelled.filler_wire {d : Declaration} (h : d.Spelled) : Filler d.names.wire :=
  .of_ref h.wire h.wire_ne

theorem Declaration.Spelled.filler_wrapper {d : Declaration} (h : d.Spelled) :
    Filler d.names.wrapper :=
  .of_ref h.wrapper.ref h.wrapper_ne

namespace Swift
open Script Script.Writes

/-! ### Lines -/

/-- Lines without names. They tell nothing. -/
@[simp] def fixedLines : List String := [
  "\x7d", "@objc", "return proto", "switch value \x7b",
  "@objc public override init() \x7b",
  "public func serializedData() throws -> Data \x7b",
  "return try self.asProtobuf.serializedData()",
  "return try parseProto(proto)",
  "case invalidProtobuf(description: String)"]

/-- The templates of lines that tell nothing, but for those which begin with a name and those
which name their arguments. -/
@[simp] def plainTemplates : List (List String) := [
  ["// MARK: - ", ""],
  ["case ", ": return ", ""],
  ["self.", " = ", ""],
  ["guard proto.has", " else \x7b"],
  ["if proto.has", " \x7b"],
  ["if let ", " = self.", " \x7b"],
  ["for item in ", " \x7b"],
  ["for item in self.", " \x7b"],
  ["let ", " = ", ""],
  ["var ", ": ", " = nil"],
  ["var ", ": [", "] = []"],
  ["var ", "Unwrapped = [", "]()"],
  ["builder.", " = ", ""],
  ["builder.", " = ", "Unwrapped"],
  ["let proto = ", ".with \x7b (builder) in"],
  ["let proto = try ", "(serializedData: serializedData)"],
  ["return ", "()"],
  ["fileprivate var asProtobuf: ", " \x7b"],
  ["public class func parseData(_ serializedData: Data) throws -> ", " \x7b"]]

/-- The templates of lines that tell something, calls apart. -/
@[simp] def tellingTemplates : List (List String) := [
  ["@objc public class ", ": NSObject \x7b"],
  ["@objc public enum ", ": Int32 \x7b"],
  ["@objc public let ", ": ", ""],
  ["public let ", ": ", ""],
  ["public enum ", "Error: Error \x7b"],
  ["fileprivate class func ", "(_ value: ", ") -> ", " \x7b"],
  ["fileprivate class func parseProto(_ proto: ", ") throws -> ", " \x7b"],
  ["throw ", ".invalidProtobuf(description: ", ")"]]

/-- Lines without gaps are checked one by one. -/
theorem plain_fixed : ∀ text ∈ fixedLines, Plain text := by decide +kernel

/-- Lines with gaps are checked by what stands around the gaps, whatever fills them. -/
theorem isPlain_plainTemplates :
    ∀ texts ∈ plainTemplates, isLine texts = true ∧ isPlain texts = true := by
  decide +kernel

/-- Those that tell something are checked for white space alone. -/
theorem isLine_tellingTemplates : ∀ texts ∈ tellingTemplates, isLine texts = true := by
  decide +kernel

section
variable {text : String} (texts : List String) (gaps : List Gap)

theorem plain_line (h : texts ∈ plainTemplates ∧ texts.length = gaps.length + 1 ∧
    text = fill texts gaps) : Plain text :=
  plain_fill texts gaps (isPlain_plainTemplates texts h.1).1 (isPlain_plainTemplates texts h.1).2
    h.2.1 h.2.2

theorem tight_line (h : texts ∈ tellingTemplates ∧ texts.length = gaps.length + 1 ∧
    text = fill texts gaps) : Sheet.Tight text :=
  tight_fill texts gaps (isLine_tellingTemplates texts h.1) h.2.1 h.2.2

end

variable {s : Schema} {f : Field} {fields : List Field} {d : Declaration} {base : List String}
  {depth : Nat}

/-! ### Properties and initializer -/

/-- The line of a property declares it under its name, with the type of its values. -/
theorem tells_property (h : f.Spelled s) :
    Tells (property s f) (some (.declares (escaped f.name) (f.elementType s))) := by
  have hcolon : ':' ∉ (escaped f.name).toList := fun hmem =>
    absurd (h.allOf_escaped.mem hmem) (by decide)
  have hmem : [letStart f.isObjcVisible, ": ", ""] ∈ tellingTemplates := by
    cases f.isObjcVisible <;> simp [letStart, tellingTemplates]
  have heq : property s f = letStart f.isObjcVisible ++ (escaped f.name ++ (": " ++ f.propertyType s)) :=
    property_eq ..
  rw [heq]
  refine ⟨tight_line _ [⟨_, h.filler_escaped⟩, ⟨_, h.filler_type⟩]
    ⟨hmem, rfl, by simp [String.append_assoc]⟩, ?_⟩
  rw [← h.filter_type]
  exact sign?_property f.isObjcVisible hcolon (f.propertyType s)

/-- **Each field is declared once**, in the order of the source. -/
theorem writes_properties (h : ∀ f ∈ fields, f.Spelled s) :
    (properties s fields).Writes base base.length
      (fields.map fun f => ⟨base, true, .declares (escaped f.name) (f.elementType s)⟩) := by
  have hlines : Writes (fields.map fun f => .line (property s f)) base base.length
      (fields.map fun f => ⟨base, true, .declares (escaped f.name) (f.elementType s)⟩) := by
    rw [List.map_eq_flatMap, List.map_eq_flatMap]
    refine flatMap fun f hf => (line (tells_property (h f hf)) (by simp)).of_eq ?_
    simp
  have hblank : Writes (if fields.isEmpty then [] else [.blank]) base base.length [] := by
    split
    · exact nil
    · exact blank
  exact (hlines.append hblank).of_eq (List.append_nil _)

theorem commas_cons (first : String) (rest : List String) :
    ∃ tail, commas (first :: rest) = first ++ tail := by
  cases rest with
  | nil => exact ⟨"", by simp [commas]⟩
  | cons next rest =>
    exact ⟨", " ++ commas (next :: rest), by simp [commas, String.append_assoc]⟩

/-- Commas between quiet texts are quiet. -/
theorem allOf_commas {parts : List String} (h : ∀ part ∈ parts, AllOf isQuiet part) :
    AllOf isQuiet (commas parts) :=
  AllOf.intercalate (by decide) h

/-- What follows a name and a colon is no value. -/
theorem clash_values {name : String} (h : AllOf isName name) (rest : List Char) :
    ∀ value ∈ values, clash value.toList (name.toList ++ ':' :: rest) = true := by
  have hmarks : isName ')' = false ∧ isName '.' = false ∧ isName ':' = false := by decide
  have hword : AllOf isName "item" ∧ AllOf isName "proto" ∧ AllOf isName "self" := by
    decide
  have hname := List.all_eq_true.1 h
  simp only [values, List.forall_mem_cons]
  refine ⟨?_, ?_, ?_, List.forall_mem_nil _⟩
  · exact clash_of_run (List.all_eq_true.1 hword.1) hname hmarks.1 hmarks.2.2 (.inr (by decide))
  · exact clash_of_run (List.all_eq_true.1 hword.2.1) hname hmarks.2.1 hmarks.2.2 (.inr (by decide))
  · exact clash_of_run (List.all_eq_true.1 hword.2.2) hname hmarks.2.1 hmarks.2.2 (.inr (by decide))

/-- Arguments behind their names are no values. -/
theorem settled_call (function : String) {items : List α} {name value : α → String}
    (hname : ∀ a ∈ items, AllOf isName (name a)) (hvalue : ∀ a ∈ items, AllOf isQuiet (value a)) :
    Settled (call function (commas (items.map fun a => name a ++ ": " ++ value a))) := by
  cases items with
  | nil => exact ⟨function.toList, [')'], by simp [call, commas], by decide, by decide⟩
  | cons a rest =>
    have hquiet : AllOf isQuiet (commas ((a :: rest).map fun a => name a ++ ": " ++ value a)) := by
      refine allOf_commas (List.forall_mem_map.2 fun b hb => ?_)
      have hcolon : AllOf isQuiet ": " := by decide
      simp [hcolon, hvalue b hb, (hname b hb).mono fun _ hc => isQuiet_of_isToken (isToken_of_isName hc)]
    have hclose : AllOf isQuiet ")" := by decide
    obtain ⟨tail, htail⟩ :=
      commas_cons (name a ++ ": " ++ value a) (rest.map fun a => name a ++ ": " ++ value a)
    refine ⟨function.toList, _, ?_, not_open (allOf_append.2 ⟨hquiet, hclose⟩), ?_⟩
    · simp [call]
    · rw [List.map_cons, htail]
      simp only [String.toList_append, List.append_assoc]
      exact clash_values (hname a List.mem_cons_self) _

/-- A line that calls a function with named arguments. -/
theorem plain_arguments (close : String) {lead function text : String} {items : List α}
    {name value : α → String} (hink : AllOf isInk (lead ++ function))
    (hbegins : begins (lead ++ function) = true) (hdull : isDull (lead ++ function) = true)
    (hname : ∀ a ∈ items, AllOf isName (name a)) (hvalue : ∀ a ∈ items, AllOf isQuiet (value a))
    (hclose : AllOf isQuiet close) (hends : ends (")" ++ close) = true)
    (htext : text =
      lead ++ call function (commas (items.map fun a => name a ++ ": " ++ value a)) ++ close) :
    Plain text := by
  have hquiet : AllOf isQuiet (commas (items.map fun a => name a ++ ": " ++ value a)) := by
    refine allOf_commas (List.forall_mem_map.2 fun b hb => ?_)
    have hcolon : AllOf isQuiet ": " := by decide
    simp [hcolon, hvalue b hb, (hname b hb).mono fun _ hc => isQuiet_of_isToken (isToken_of_isName hc)]
  have hsplit : text = (lead ++ function) ++
      (("(" ++ commas (items.map fun a => name a ++ ": " ++ value a)) ++ (")" ++ close)) := by
    rw [htext, call]
    simp only [String.append_assoc]
  have hsettled : Settled text := by
    rw [htext]
    exact ((settled_call function hname hvalue).behind lead).append (not_open hclose)
  have hparen : AllOf isInk "(" ∧ AllOf isInk ")" := by decide
  have hinked {x : String} (h : AllOf isQuiet x) : AllOf isInk x := h.mono fun _ => isInk_of_isQuiet
  rw [hsplit] at hsettled ⊢
  refine plain_of (tight ?_ (begins_append hbegins _) ?_) (isDull_append hdull _) (.inr hsettled)
  · simp only [allOf_append] at hink ⊢
    exact ⟨hink, ⟨hparen.1, hinked hquiet⟩, hparen.2, hinked hclose⟩
  · exact ends_append _ (ends_append _ hends)

/-- An initializer tells nothing: its lines only assign. -/
theorem writes_initializer (h : ∀ f ∈ fields, f.Spelled s) :
    (initializer s fields).Writes base depth [] := by
  rw [initializer]
  split
  · exact append (plain_block (plain_fixed _ (by simp)) nil) blank
  · have hstart : ∀ visible, AllOf isInk (objc visible ++ "public " ++ "init") ∧
        begins (objc visible ++ "public " ++ "init") = true ∧
        isDull (objc visible ++ "public " ++ "init") = true := by
      decide
    obtain ⟨hink, hbegins, hdull⟩ := hstart (fields.all (·.isObjcVisible))
    refine append (plain_block ?_ (map_plain fun f hf => ?_)) blank
    · exact plain_arguments " \x7b" hink hbegins hdull (fun f hf => (h f hf).allOf_escaped)
        (fun f hf => (h f hf).filler_type.quiet) (by decide) (by decide) rfl
    · exact plain_line ["self.", " = ", ""] [⟨_, (h f hf).filler_name⟩, ⟨_, (h f hf).filler_escaped⟩]
        (by simp [String.append_assoc])

theorem writes_serializer : serializer.Writes base depth [] :=
  append (cons (plain (plain_fixed _ (by simp)))
    (plain_block (plain_fixed _ (by simp)) (plain (plain_fixed _ (by simp))))) blank

/-! ### From the wire -/

/-- The functions that are called when a field is read. -/
def reads (s : Schema) (f : Field) : List String :=
  match f.type with
  | .message target => [s.pathOf target ++ ".parseProto"]
  | .enumeration target => [converterRef s target "Wrap"]
  | .scalar _ | .unresolved => []

/-- The functions that are called when a field is built. -/
def builds (s : Schema) (f : Field) : List String :=
  match f.type with
  | .enumeration target => [converterRef s target "Unwrap"]
  | .message _ | .scalar _ | .unresolved => []

/-- The beginning of a line that may end in a call. -/
structure Lead (text : String) : Prop where
  ink : AllOf isInk text
  begins : begins text = true
  dull : isDull text = true
  last : (text.toList.getLast?.all fun c => !isRef c) = true

/-- What is behind the parenthesis of a call on the value of a field. -/
structure IsValue (text : String) : Prop where
  quiet : AllOf isQuiet text
  ends : ends text = true
  starts : ∃ start ∈ values, ∃ rest, text = start ++ rest

/-- A call behind a lead is read as a call of what it names. -/
theorem Lead.tells_call {lead ref value : String} (h : Lead lead) (href : AllOf isRef ref)
    (hvalue : IsValue value) : Tells (lead ++ (ref ++ ("(" ++ value))) (some (.calls ref)) where
  tight := by
    have hopen : AllOf isInk "(" := by decide
    have hink := hvalue.quiet.mono fun _ => isInk_of_isQuiet
    refine tight ?_ (begins_append h.begins _) ?_
    · simp [h.ink, hopen, hink, href.token.mono fun _ hc => isInk_of_isQuiet (isQuiet_of_isToken hc)]
    · exact ends_append _ (ends_append _ (ends_append _ hvalue.ends))
  sign := by
    exact sign?_call (isDull_append h.dull _) rfl h.last href (not_open hvalue.quiet) hvalue.starts

/-- Without a parenthesis there is no call. -/
theorem Lead.plain {lead value : String} (h : Lead lead) (hopen : '(' ∉ lead.toList)
    (hvalue : Filler value) : Plain (lead ++ value) := by
  have hink := hvalue.quiet.mono fun _ => isInk_of_isQuiet
  refine plain_of (tight (allOf_append.2 ⟨h.ink, hink⟩) (begins_append h.begins _)
    (ends_append _ hvalue.ends)) (isDull_append h.dull _) (.inl ?_)
  rw [String.toList_append, List.mem_append, not_or]
  exact ⟨hopen, not_open hvalue.quiet⟩

/-- A line in the body of a function. -/
theorem writes_inner {text : String} {sign : Sign} (h : Tells text (some sign))
    (hsign : ∀ kind name, sign ≠ .opens kind name) (hdeep : base.length < depth) :
    Writes [.line text] base depth [⟨base, false, sign⟩] := by
  refine (line h fun kind name heq => hsign kind name (Option.some.inj heq)).of_eq ?_
  simp [Nat.ne_of_gt hdeep]

/-- Escaping adds nothing that could tell something. -/
theorem all_isQuiet_escapeChar {c : Char} (h : isQuiet c = true) :
    (escapeChar c).all isQuiet = true := by
  by_cases hlow : c.toNat < 0x20
  · have hall : ∀ n < 0x20, (escapeChar (Char.ofNat n)).all isQuiet = true := by decide
    have := hall c.toNat hlow
    rwa [Char.ofNat_toNat] at this
  · have hctrl {x : Char} (hx : x.toNat < 0x20) : c ≠ x := by
      rintro rfl
      exact hlow hx
    rw [escapeChar]
    split
    · decide
    · split
      · decide
      · rw [if_neg (hctrl (by decide)), if_neg (hctrl (by decide)), if_neg (hctrl (by decide)),
          if_neg (hctrl (by decide)), if_neg (hctrl (by decide)), if_neg (by omega)]
        simpa using h

/-- Quoted text can fill a gap, whatever is in it. -/
theorem filler_quoted {text : String} (h : AllOf isQuiet text) : Filler (quoted text) := by
  have hquote : isQuiet '"' = true ∧ isBlank '"' = false := by decide
  have hchars : (text.toList.flatMap escapeChar).all isQuiet = true := by
    rw [List.all_flatMap]
    exact List.all_eq_true.2 fun c hc => all_isQuiet_escapeChar (h.mem hc)
  refine ⟨?_, ?_, ?_⟩
  · rw [AllOf, quoted, String.toList_ofList]
    simp [hquote, hchars]
  · simp [Code.begins, quoted, hquote]
  · simp [Code.ends, quoted, List.getLast?_cons, hquote]

/-- The errors that are thrown when a field is read. -/
def guards (error : String) (f : Field) : List String :=
  if f.cardinality = some .required then [error] else []

/-- The check of a required field throws the error of the outermost message, and that of any
other field is not there. -/
theorem writes_requiredGuard {error : String} (herror : AllOf isRef error) (hne : error ≠ "")
    (hd : d.Spelled) (hf : f.Spelled s) (hdeep : base.length < depth) :
    (requiredGuard error d f).Writes base depth
      ((guards error f).map fun error => ⟨base, false, .throws error⟩) := by
  rw [requiredGuard, guards]
  split
  · have hdescription :
        Filler (quoted s!"{d.names.wrapper} missing required field: {f.name}") := by
      refine filler_quoted ?_
      have hgap : AllOf isQuiet " missing required field: " := by decide
      have hwrapper : AllOf isQuiet d.names.wrapper :=
        hd.wrapper.ref.token.mono fun _ => isQuiet_of_isToken
      exact allOf_append.2 ⟨allOf_append.2 ⟨hwrapper, hgap⟩, hf.filler_name.quiet⟩
    refine plain_block (plain_line ["guard proto.has", " else \x7b"] [⟨_, hf.filler_capitalized⟩]
      (by simp [String.append_assoc])) ?_
    refine writes_inner ⟨?_, ?_⟩ (by simp) (by omega)
    · exact tight_line ["throw ", ".invalidProtobuf(description: ", ")"]
        [⟨_, .of_ref herror hne⟩, ⟨_, hdescription⟩] (by simp [String.append_assoc])
    · rw [String.append_assoc, String.append_assoc, String.append_assoc]
      exact sign?_throw (not_open (herror.token.mono fun _ => isQuiet_of_isToken)) _
  · exact nil

/-- What is read is a value as it is, or is converted by a call. -/
theorem wrapped_cases (s : Schema) (f : Field) :
    (reads s f = [] ∧ ∀ value, wrapped s f value = value) ∨
      ∃ ref, reads s f = [ref] ∧ ∃ lead ∈ ["", "try "],
        ∀ value, wrapped s f value = lead ++ call ref value := by
  unfold reads wrapped
  cases f.type with
  | message target => exact .inr ⟨_, rfl, "try ", by decide, fun _ => rfl⟩
  | enumeration target => exact .inr ⟨_, rfl, "", by decide, fun _ => String.empty_append.symm⟩
  | scalar _ => exact .inl ⟨rfl, fun _ => rfl⟩
  | unresolved => exact .inl ⟨rfl, fun _ => rfl⟩

/-- What converts a field is written as a reference. -/
theorem allOf_reads (h : f.Spelled s) : ∀ ref ∈ reads s f, AllOf isRef ref := by
  have helement := h.element
  have hconverter := h.converter
  unfold reads
  unfold Field.elementType at helement
  cases htype : f.type with
  | message target =>
    rw [htype] at helement
    exact List.forall_mem_singleton.2 (allOf_append.2 ⟨helement, by decide⟩)
  | enumeration target =>
    exact List.forall_mem_singleton.2 (hconverter target htype "Wrap" (by decide))
  | scalar _ => exact List.forall_mem_nil _
  | unresolved => exact List.forall_mem_nil _

theorem Lead.append_try {lead : String} (h : Lead lead) {more : String}
    (hmore : more ∈ ["", "try "]) : Lead (lead ++ more) := by
  rcases List.mem_pair.1 hmore with rfl | rfl
  · rwa [String.append_empty]
  · have htry : AllOf isInk "try " := by decide
    refine ⟨allOf_append.2 ⟨h.ink, htry⟩, begins_append h.begins _, isDull_append h.dull _, ?_⟩
    have hlast : "try ".toList.getLast? = some ' ' := by decide
    rw [String.toList_append, List.getLast?_append, hlast]
    exact (by decide : (!isRef ' ') = true)

/-- A field's value behind a lead, converted if need be. -/
theorem Lead.tells_wrapped {lead value close ref : String} (h : Lead lead) (hf : f.Spelled s)
    (hvalue : IsValue (value ++ ")" ++ close)) (hreads : reads s f = [ref]) :
    Tells (lead ++ wrapped s f value ++ close) (some (.calls ref)) := by
  have href := allOf_reads hf ref (by simp [hreads])
  rcases wrapped_cases s f with ⟨hnil, -⟩ | ⟨ref', href', more, hmore, hwrapped⟩
  · simp [hnil] at hreads
  · obtain rfl : ref' = ref := by simpa [hreads] using href'.symm
    have hcall := (h.append_try hmore).tells_call href hvalue
    rw [hwrapped, call]
    simpa only [String.append_assoc] using hcall

/-- A part of the wire type ends a call. -/
theorem isValue_member (start : String) (hstart : start ∈ ["proto.", "self."]) (hf : f.Spelled s) :
    IsValue (start ++ f.name ++ ")" ++ "") := by
  have hquiet : AllOf isQuiet start ∧ start ∈ values := by
    rcases List.mem_pair.1 hstart with rfl | rfl <;> decide
  have hclose : AllOf isQuiet ")" := by decide
  refine ⟨?_, ?_, start, hquiet.2, f.name ++ ")", ?_⟩
  · simp [hquiet.1, hf.filler_name.quiet, hclose]
  · rw [String.append_empty]
    exact ends_append _ (by decide)
  · simp [String.append_assoc]

theorem filler_member (start : String) (hstart : start ∈ ["proto.", "self."]) (hf : f.Spelled s) :
    Filler (start ++ f.name) := by
  refine Filler.append ?_ hf.filler_name
  rcases List.mem_pair.1 hstart with rfl | rfl <;> constructor <;> decide

/-- A line that assigns what is read of a field. -/
theorem writes_wrapped {lead : String} (h : Lead lead) (hopen : '(' ∉ lead.toList)
    (hf : f.Spelled s) (hdeep : base.length < depth) :
    Writes [.line (lead ++ wrapped s f ("proto." ++ f.name))] base depth
      ((reads s f).map fun ref => ⟨base, false, .calls ref⟩) := by
  rcases wrapped_cases s f with ⟨hnil, hwrapped⟩ | ⟨ref, href, -⟩
  · rw [hnil, hwrapped]
    exact plain (h.plain hopen (filler_member "proto." (by decide) hf))
  · have htells := h.tells_wrapped hf (isValue_member "proto." (by decide) hf) href
    rw [String.append_empty] at htells
    rw [href]
    exact writes_inner htells (by simp) hdeep

/-- A lead ends with a character that is no part of a path. -/
theorem lead_of {first last : String} (hink : AllOf isInk (first ++ last))
    (hbegins : begins first = true) (hdull : isDull (first ++ last) = true)
    (hlast : (last.toList.getLast?.any fun c => !isRef c) = true) : Lead (first ++ last) := by
  refine ⟨hink, begins_append hbegins last, hdull, ?_⟩
  rw [String.toList_append, List.getLast?_append]
  cases hc : last.toList.getLast? with
  | none => simp [hc] at hlast
  | some c => simpa [hc] using hlast

theorem allOf_let (hf : f.Spelled s) : AllOf isQuiet ("let " ++ escaped f.name ++ " = ") := by
  have htexts : AllOf isQuiet "let " ∧ AllOf isQuiet " = " := by decide
  simp [htexts, hf.filler_escaped.quiet]

/-- A value can be assigned to a new variable. -/
theorem lead_let (hf : f.Spelled s) : Lead ("let " ++ escaped f.name ++ " = ") := by
  refine lead_of ((allOf_let hf).mono fun _ => isInk_of_isQuiet) (begins_append (by decide) _) ?_
    (by decide)
  exact isDull_append (isDull_append (by decide) _) _

theorem allOf_assign (hf : f.Spelled s) : AllOf isQuiet (escaped f.name ++ " = ") := by
  have htext : AllOf isQuiet " = " := by decide
  simp [htext, hf.filler_escaped.quiet]

/-- Or to one that was nil before. -/
theorem lead_assign (hf : f.Spelled s) : Lead (escaped f.name ++ " = ") := by
  have hwords : ∀ word ∈ ["public", "fileprivate", "throw"],
      isReserved word = true ∧ word.toList.head? ≠ some '`' := by
    decide
  refine lead_of ((allOf_assign hf).mono fun _ => isInk_of_isQuiet) hf.filler_escaped.begins ?_
    (by decide)
  refine isDull_name ' ' (hf.allOf_escaped.mono fun _ => isToken_of_isName)
    (escaped_ne_empty hf.name_ne) (by decide) (by decide) fun _ hmem => ?_
  exact escaped_ne_reserved (hwords _ hmem).1 (hwords _ hmem).2 rfl

/-- Or be appended to a list. -/
theorem lead_call {name : String} (h : AllOf isToken name) (hne : name ≠ "") :
    Lead (name ++ "(") := by
  have hname := Filler.of_token h hne
  have hopen : AllOf isInk "(" := by decide
  refine lead_of ?_ hname.begins ?_ (by decide)
  · exact allOf_append.2 ⟨hname.quiet.mono fun _ => isInk_of_isQuiet, hopen⟩
  · exact isDull_name '(' h hne (by decide) (by decide) fun hc => absurd hc (by decide)

theorem isValue_item : IsValue ("item" ++ ")" ++ ")") :=
  ⟨by decide, by decide, "item))", by decide, "", rfl⟩

/-- A list that is converted is converted by some function. -/
theorem exists_reads (h : isConvertedList f = true) : ∃ ref, reads s f = [ref] := by
  unfold isConvertedList Field.holdsMessage Field.holdsEnum at h
  unfold reads
  cases htype : f.type <;> simp_all

/-- And one that is not, by none. -/
theorem reads_of_list (h : f.isList = true) (hnot : ¬isConvertedList f = true) :
    reads s f = [] := by
  unfold isConvertedList Field.holdsMessage Field.holdsEnum at hnot
  unfold reads
  cases htype : f.type <;> simp_all

/-- **Reading a field calls what converts it, once**, however the field occurs. -/
theorem writes_readField (hf : f.Spelled s) (hdeep : base.length < depth) :
    (readField s f).Writes base depth ((reads s f).map fun ref => ⟨base, false, .calls ref⟩) := by
  have happend : AllOf isToken ".append" ∧ AllOf isToken "Wrapped" := by decide
  rw [readField]
  split
  · next hconverted =>
    obtain ⟨ref, href⟩ := exists_reads (s := s) hconverted
    have hlocal : AllOf isToken (readLocal f ++ ".append") := by
      rw [readLocal, if_pos hconverted]
      simp [happend, hf.name.ref.token]
    have htells := (lead_call hlocal (by simp)).tells_wrapped hf isValue_item href
    rw [href]
    refine cons (plain (plain_line ["var ", ": [", "] = []"]
      [⟨_, hf.filler_local⟩, ⟨_, hf.filler_element⟩] (by simp [String.append_assoc]))) ?_
    refine plain_block (plain_line ["for item in ", " \x7b"]
      [⟨_, filler_member "proto." (by decide) hf⟩] (by simp [String.append_assoc])) ?_
    exact writes_inner htells (by simp) (by omega)
  · next hnot =>
    split
    · next hlist =>
      rw [reads_of_list hlist hnot]
      exact plain (plain_line ["let ", " = ", ""]
        [⟨_, hf.filler_escaped⟩, ⟨_, filler_member "proto." (by decide) hf⟩]
          (by simp [String.append_assoc]))
    · split
      · refine cons (plain (plain_line ["var ", ": ", " = nil"]
          [⟨_, hf.filler_escaped⟩, ⟨_, hf.filler_type⟩] (by simp [String.append_assoc]))) ?_
        refine plain_block (plain_line ["if proto.has", " \x7b"] [⟨_, hf.filler_capitalized⟩]
          (by simp [String.append_assoc])) ?_
        exact writes_wrapped (lead_assign hf) (not_open (allOf_assign hf)) hf (by omega)
      · exact writes_wrapped (lead_let hf) (not_open (allOf_let hf)) hf hdeep

theorem tells_parseProto (hd : d.Spelled) :
    Tells (s!"fileprivate class func parseProto(_ proto: {d.names.wire}) throws -> {d.names.path}" ++
      " \x7b") (some (.defines "parseProto")) where
  tight := tight_line ["fileprivate class func parseProto(_ proto: ", ") throws -> ", " \x7b"]
    [⟨_, hd.filler_wire⟩, ⟨_, hd.filler_path⟩] (by simp [String.append_assoc])
  sign := by
    have hstart : "fileprivate class func parseProto(_ proto: " =
        "fileprivate class func " ++ ("parseProto" ++ "(_ proto: ") := by decide
    have hsign := sign?_function "parseProto" "(_ proto: "
      (d.names.wire ++ (") throws -> " ++ (d.names.path ++ " \x7b"))) (by decide) (by decide)
      (by decide)
    show sign? ("fileprivate class func parseProto(_ proto: " ++ d.names.wire ++ ") throws -> " ++
      d.names.path ++ " \x7b") = _
    rw [hstart]
    simpa only [String.append_assoc] using hsign

/-- What is told where a field is read. -/
def readMarks (s : Schema) (error : String) (base : List String) (f : Field) : List Mark :=
  ((guards error f).map fun error => ⟨base, false, .throws error⟩) ++
    (reads s f).map fun ref => ⟨base, false, .calls ref⟩

/-- All that reading a field tells: the error it can throw, and what converts it. -/
theorem mem_readMarks_iff {error : String} {f : Field} {m : Mark} :
    m ∈ readMarks s error base f ↔
      (f.cardinality = some .required ∧ m = ⟨base, false, .throws error⟩) ∨
        ∃ ref ∈ reads s f, m = ⟨base, false, .calls ref⟩ := by
  rw [readMarks, guards, List.mem_append, List.mem_map, List.mem_map]
  refine or_congr ?_ (exists_congr fun ref => and_congr_right fun _ => eq_comm)
  split
  · next hrequired => simp [hrequired, eq_comm]
  · next hfree => simp [hfree]

/-- The function that reads a message tells its own name, and then what each field does. -/
theorem writes_parsers {id : Nat} (hd : d.Spelled) (hfields : ∀ f ∈ d.fields, f.Spelled s)
    (herror : AllOf isRef (errorRef s id)) (hne : errorRef s id ≠ "") :
    (parsers s id d).Writes base base.length
      (⟨base, true, .defines "parseProto"⟩ :: d.fields.flatMap (readMarks s (errorRef s id) base)) := by
  rw [parsers]
  have hbytes : Writes (Sheet.Step.line "@objc" ::
      braced s!"public class func parseData(_ serializedData: Data) throws -> {d.names.path}"
        [.line s!"let proto = try {d.names.wire}(serializedData: serializedData)",
          .line "return try parseProto(proto)"]) base base.length [] := by
    refine cons (plain (plain_fixed _ (by simp))) (plain_block ?_ (cons (plain ?_) (plain (plain_fixed _ (by simp)))))
    · exact plain_line ["public class func parseData(_ serializedData: Data) throws -> ", " \x7b"]
        [⟨_, hd.filler_path⟩] (by simp [String.append_assoc])
    · exact plain_line ["let proto = try ", "(serializedData: serializedData)"] [⟨_, hd.filler_wire⟩]
        (by simp [String.append_assoc])
  have hreads : Writes (d.fields.flatMap fun f =>
      requiredGuard (errorRef s id) d f ++ readField s f ++ [.blank]) base (base.length + 1)
        (d.fields.flatMap (readMarks s (errorRef s id) base)) := by
    refine flatMap fun f hf => ?_
    have hguard := writes_requiredGuard herror hne hd (hfields f hf) (Nat.lt_succ_self base.length)
    have hread := writes_readField (hfields f hf) (Nat.lt_succ_self base.length)
    exact ((hguard.append hread).append blank).of_eq (List.append_nil _)
  have hreturn : Plain ("return " ++ call d.names.path
      (commas (d.fields.map fun f => s!"{f.name}: {readLocal f}"))) := by
    have hlead : AllOf isInk ("return " ++ d.names.path) :=
      allOf_append.2 ⟨by decide, hd.filler_path.quiet.mono fun _ => isInk_of_isQuiet⟩
    refine plain_arguments "" hlead (begins_append (by decide) _) (isDull_append (by decide) _)
      (fun f hf => (hfields f hf).name.mono fun _ => isName_of_isLetter)
      (fun f hf => (hfields f hf).filler_local.quiet) (by decide) (by decide) ?_
    exact String.append_empty.symm
  have hproto := block (tells_parseProto hd) (by simp) (hreads.append (plain hreturn))
  refine ((hbytes.append (cons blank hproto)).append blank).of_eq ?_
  simp

/-! ### To the wire -/

/-- What is built is a value or a member of it, or is converted by a call. -/
theorem unwrapped_cases (s : Schema) (f : Field) :
    (builds s f = [] ∧ ∃ tail ∈ ["", ".asProtobuf"], ∀ value, unwrapped s f value = value ++ tail) ∨
      ∃ ref, builds s f = [ref] ∧ f.isOptional = false ∧
        ∀ value, unwrapped s f value = call ref value := by
  unfold builds unwrapped Field.isOptional Field.hasOptionalForm
  cases f.type with
  | message target => exact .inl ⟨rfl, ".asProtobuf", by decide, fun _ => rfl⟩
  | enumeration target => exact .inr ⟨_, rfl, Bool.and_false _, fun _ => rfl⟩
  | scalar _ => exact .inl ⟨rfl, "", by decide, fun _ => String.append_empty.symm⟩
  | unresolved => exact .inl ⟨rfl, "", by decide, fun _ => String.append_empty.symm⟩

/-- What converts a field back is written as a reference. -/
theorem allOf_builds (h : f.Spelled s) : ∀ ref ∈ builds s f, AllOf isRef ref := by
  have hconverter := h.converter
  unfold builds
  cases htype : f.type with
  | enumeration target =>
    exact List.forall_mem_singleton.2 (hconverter target htype "Unwrap" (by decide))
  | message _ => exact List.forall_mem_nil _
  | scalar _ => exact List.forall_mem_nil _
  | unresolved => exact List.forall_mem_nil _

theorem filler_tail {value tail : String} (h : Filler value) (htail : tail ∈ ["", ".asProtobuf"]) :
    Filler (value ++ tail) := by
  rcases List.mem_pair.1 htail with rfl | rfl
  · rwa [String.append_empty]
  · exact h.append (by constructor <;> decide)

/-- An item that is not converted is no argument that can be mistaken for one that is. -/
theorem plain_item {name tail : String} (h : AllOf isToken name) (hne : name ≠ "")
    (htail : tail ∈ ["", ".asProtobuf"]) : Plain (call name ("item" ++ tail)) := by
  have hlead := lead_call h hne
  have hitem : AllOf isQuiet ("item" ++ tail ++ ")") ∧ ends ("item" ++ tail ++ ")") = true ∧
      (values.any fun value =>
        (after? value.toList ("item" ++ tail ++ ")").toList).isSome) = false := by
    rcases List.mem_pair.1 htail with rfl | rfl <;> decide
  have htext : call name ("item" ++ tail) = name ++ "(" ++ ("item" ++ tail ++ ")") := by
    simp only [call, String.append_assoc]
  have hsplit : (name ++ "(" ++ ("item" ++ tail ++ ")")).toList =
      name.toList ++ '(' :: ("item" ++ tail ++ ")").toList := by
    simp
  rw [htext]
  refine ⟨tight ?_ (begins_append hlead.begins _) (ends_append _ hitem.2.1), ?_⟩
  · exact allOf_append.2 ⟨hlead.ink, hitem.1.mono fun _ => isInk_of_isQuiet⟩
  · rw [sign?_of_isDull (isDull_append hlead.dull _),
      callee?_of_argument hsplit (not_open hitem.1), hitem.2.2]
    rfl

theorem lead_builder (hf : f.Spelled s) : Lead ("builder." ++ f.name ++ " = ") := by
  have htexts : AllOf isInk "builder." ∧ AllOf isInk " = " := by decide
  refine lead_of ?_ (begins_append (by decide) _) (isDull_append (isDull_append (by decide) _) _)
    (by decide)
  simp [htexts, hf.filler_name.quiet.mono fun _ => isInk_of_isQuiet]

/-- An item is converted back inside the loop over its list. -/
theorem writes_buildItem (hf : f.Spelled s) (hdeep : base.length < depth) :
    Writes [.line (call (f.name ++ "Unwrapped.append") (unwrapped s f "item"))] base depth
      ((builds s f).map fun ref => ⟨base, false, .calls ref⟩) := by
  have happend : AllOf isToken "Unwrapped.append" := by decide
  have hname : AllOf isToken (f.name ++ "Unwrapped.append") :=
    allOf_append.2 ⟨hf.name.ref.token, happend⟩
  rcases unwrapped_cases s f with ⟨hnil, tail, htail, hunwrapped⟩ | ⟨ref, href, -, hunwrapped⟩
  · rw [hnil, hunwrapped]
    exact plain (plain_item hname (by simp) htail)
  · have hcall := (lead_call hname (by simp)).tells_call (allOf_builds hf ref (by simp [href]))
      isValue_item
    rw [href, hunwrapped, call, call]
    refine writes_inner ?_ (by simp) hdeep
    simpa only [String.append_assoc] using hcall

/-- **Handing a field over calls what converts it back, once**, however the field occurs. -/
theorem writes_buildField (hf : f.Spelled s) (hdeep : base.length < depth) :
    (buildField s f).Writes base depth ((builds s f).map fun ref => ⟨base, false, .calls ref⟩) := by
  have hassign {value : String} (hvalue : Filler value) :
      Plain ("builder." ++ f.name ++ " = " ++ value) :=
    plain_line ["builder.", " = ", ""] [⟨_, hf.filler_name⟩, ⟨_, hvalue⟩]
      (by simp [String.append_assoc])
  have hself := filler_member "self." (by decide) hf
  rw [buildField]
  split
  · have hvar : Plain s!"var {f.name}Unwrapped = [{f.wireType s}]()" :=
      plain_line ["var ", "Unwrapped = [", "]()"] [⟨_, hf.filler_name⟩, ⟨_, hf.filler_wire⟩]
        (by simp [String.append_assoc])
    have hfor : Plain (s!"for item in self.{f.name}" ++ " \x7b") :=
      plain_line ["for item in self.", " \x7b"] [⟨_, hf.filler_name⟩]
        (by simp [String.append_assoc])
    have hbuilt : Plain s!"builder.{f.name} = {f.name}Unwrapped" :=
      plain_line ["builder.", " = ", "Unwrapped"] [⟨_, hf.filler_name⟩, ⟨_, hf.filler_name⟩]
        (by simp [String.append_assoc])
    have hitem := writes_buildItem hf (Nat.lt_succ_of_lt hdeep)
    exact ((cons (plain hvar) (plain_block hfor hitem)).append (plain hbuilt)).of_eq
      (List.append_nil _)
  · split
    · next hoptional =>
      rcases unwrapped_cases s f with ⟨hnil, tail, htail, hunwrapped⟩ | ⟨ref, -, hnot, -⟩
      · rw [hnil, hunwrapped]
        refine plain_block (plain_line ["if let ", " = self.", " \x7b"]
          [⟨_, hf.filler_escaped⟩, ⟨_, hf.filler_name⟩] (by simp [String.append_assoc])) (plain ?_)
        exact hassign (filler_tail hf.filler_escaped htail)
      · rw [hnot] at hoptional
        cases hoptional
    · rcases unwrapped_cases s f with ⟨hnil, tail, htail, hunwrapped⟩ | ⟨ref, href, -, hunwrapped⟩
      · rw [hnil, hunwrapped]
        exact plain (hassign (filler_tail hself htail))
      · have hcall := (lead_builder hf).tells_call (allOf_builds hf ref (by simp [href]))
          (isValue_member "self." (by decide) hf)
        rw [href, hunwrapped, call]
        refine writes_inner ?_ (by simp) hdeep
        simp only [String.append_assoc, String.append_empty] at hcall ⊢
        exact hcall

/-- The builder tells what each field does. -/
theorem writes_builder (hd : d.Spelled) (hfields : ∀ f ∈ d.fields, f.Spelled s) :
    (builder s d).Writes base base.length
      (d.fields.flatMap fun f => (builds s f).map fun ref => ⟨base, false, .calls ref⟩) := by
  have hhead : Plain (s!"fileprivate var asProtobuf: {d.names.wire}" ++ " \x7b") :=
    plain_line ["fileprivate var asProtobuf: ", " \x7b"] [⟨_, hd.filler_wire⟩]
      (by simp [String.append_assoc])
  rw [builder]
  split
  · next hempty =>
    rw [List.isEmpty_iff.1 hempty, List.flatMap_nil]
    exact append (plain_block hhead
      (plain (plain_line ["return ", "()"] [⟨_, hd.filler_wire⟩]
        (by simp [String.append_assoc])))) blank
  · have hwith : Plain (s!"let proto = {d.names.wire}.with " ++ "\x7b (builder) in") :=
      plain_line ["let proto = ", ".with \x7b (builder) in"] [⟨_, hd.filler_wire⟩]
        (by simp [String.append_assoc])
    have hbuild : Writes (d.fields.flatMap fun f => buildField s f ++ [.blank]) base
        (base.length + 1 + 1)
        (d.fields.flatMap fun f => (builds s f).map fun ref => ⟨base, false, .calls ref⟩) :=
      flatMap fun f hf => ((writes_buildField (hfields f hf) (by omega)).append blank).of_eq
        (List.append_nil _)
    have hreturn : Writes [.line "\x7d", .blank, .line "return proto"] base (base.length + 1) [] :=
      cons (plain plain_brace) (cons blank (plain (plain_fixed _ (by simp))))
    have hbody := (cons (plain hwith) (hbuild.append strip).deeper).append hreturn
    refine ((plain_block hhead ?_).append blank).of_eq (List.append_nil _)
    simpa using hbody

/-! ### Wrappers -/

/-- Only an outermost message has an error type, named after it. -/
theorem writes_errorEnum (hd : d.Spelled) :
    (errorEnum d).Writes base base.length
      (if d.parent.isNone then [⟨base, true, .errs (d.names.wrapper ++ "Error")⟩] else []) := by
  have hsign : sign? (s!"public enum {d.names.wrapper}Error: Error" ++ " \x7b") =
      some (.errs (d.names.wrapper ++ "Error")) := by
    have := sign?_errorType (d.names.wrapper ++ "Error")
    simp only [String.append_assoc] at this ⊢
    exact this
  have htells : Tells (s!"public enum {d.names.wrapper}Error: Error" ++ " \x7b")
      (some (.errs (d.names.wrapper ++ "Error"))) :=
    ⟨tight_line ["public enum ", "Error: Error \x7b"] [⟨_, hd.filler_wrapper⟩]
      (by simp [String.append_assoc]), hsign⟩
  rw [errorEnum]
  split
  · refine ((block htells (by simp) (plain (plain_fixed _ (by simp)))).append blank).of_eq ?_
    simp
  · exact nil

theorem plain_markLine (hd : d.Spelled) : Plain (markLine d) := by
  rw [markLine]
  exact plain_line ["// MARK: - ", ""] [⟨_, hd.filler_wrapper⟩] (by simp)

/-- What the lines of a message tell, around what those of its nested declarations tell. -/
def messageMarks (s : Schema) (id : Nat) (d : Declaration) (base : List String)
    (nested : List Mark) : List Mark :=
  let inside := base ++ [d.names.wrapper]
  ⟨base, true, .opens .message d.names.wrapper⟩ ::
    ((if d.parent.isNone then [⟨inside, true, .errs (d.names.wrapper ++ "Error")⟩] else []) ++
      nested ++
      (d.fields.map fun f => ⟨inside, true, .declares (escaped f.name) (f.elementType s)⟩) ++
      ⟨inside, true, .defines "parseProto"⟩ ::
        d.fields.flatMap (readMarks s (errorRef s id) inside) ++
      d.fields.flatMap fun f => (builds s f).map fun ref => ⟨inside, false, .calls ref⟩)

/-- All that the wrapper of a message tells, nested declarations included. -/
theorem mem_messageMarks_iff {id : Nat} {nested : List Mark} {m : Mark} :
    m ∈ messageMarks s id d base nested ↔
      m = ⟨base, true, .opens .message d.names.wrapper⟩ ∨
      (d.parent = none ∧
        m = ⟨base ++ [d.names.wrapper], true, .errs (d.names.wrapper ++ "Error")⟩) ∨
      m ∈ nested ∨
      (∃ f ∈ d.fields,
        m = ⟨base ++ [d.names.wrapper], true, .declares (escaped f.name) (f.elementType s)⟩) ∨
      m = ⟨base ++ [d.names.wrapper], true, .defines "parseProto"⟩ ∨
      (∃ f ∈ d.fields, m ∈ readMarks s (errorRef s id) (base ++ [d.names.wrapper]) f) ∨
      ∃ f ∈ d.fields, ∃ ref ∈ builds s f,
        m = ⟨base ++ [d.names.wrapper], false, .calls ref⟩ := by
  have herrs : m ∈ (if d.parent.isNone then
        [(⟨base ++ [d.names.wrapper], true, .errs (d.names.wrapper ++ "Error")⟩ : Mark)] else []) ↔
      d.parent = none ∧
        m = ⟨base ++ [d.names.wrapper], true, .errs (d.names.wrapper ++ "Error")⟩ := by
    cases d.parent <;> simp
  simp only [messageMarks, List.mem_cons, List.mem_append, List.mem_map, List.mem_flatMap, herrs,
    or_assoc, eq_comm (b := m)]

/-- **The wrapper of a message tells that and no more**, and what is nested tells it one deeper.
-/
theorem writes_messageScript {id : Nat} {nested : Script} {marks : List Mark} (hd : d.Spelled)
    (hfields : ∀ f ∈ d.fields, f.Spelled s) (herror : AllOf isRef (errorRef s id))
    (hne : errorRef s id ≠ "")
    (hnested : nested.Writes (base ++ [d.names.wrapper]) (base.length + 1) marks) :
    (messageScript s id d nested).Writes base base.length (messageMarks s id d base marks) := by
  have hlength : base.length + 1 = (base ++ [d.names.wrapper]).length := by simp
  have htight : Sheet.Tight (s!"@objc public class {d.names.wrapper}: NSObject" ++ " \x7b") :=
    tight_line ["@objc public class ", ": NSObject \x7b"] [⟨_, hd.filler_wrapper⟩]
      (by simp [String.append_assoc])
  have hbody := (((((((cons blank (writes_errorEnum hd)).append (hlength ▸ hnested)).append
    (writes_properties hfields)).append (writes_initializer hfields)).append
    writes_serializer).append (writes_parsers hd hfields herror hne)).append
    (writes_builder hd hfields)).append strip
  rw [← hlength] at hbody
  have hclass := wrapper htight (heading?_class d.names.wrapper) hbody
  refine (((cons (plain (plain_markLine hd)) blank).append hclass).append blank).of_eq ?_
  simp [messageMarks]

theorem tells_converter {function source target : String} (hfunction : AllOf isLetter function)
    (hne : function ≠ "") (hsource : Filler source) (htarget : Filler target) :
    Tells (s!"fileprivate class func {function}(_ value: {source}) -> {target}" ++ " \x7b")
      (some (.defines function)) where
  tight := tight_line ["fileprivate class func ", "(_ value: ", ") -> ", " \x7b"]
    [⟨_, .of_ref hfunction.ref hne⟩, ⟨_, hsource⟩, ⟨_, htarget⟩] (by simp [String.append_assoc])
  sign := by
    have hopen := not_open (hfunction.ref.token.mono fun _ => isQuiet_of_isToken)
    simp only [String.append_assoc]
    exact sign?_function function "(_ value: " _ hopen (by decide) (by decide)

/-- A converter tells its own name; its cases tell nothing. -/
theorem writes_converterScript {names : List String} {function source target : String}
    (hnames : ∀ name ∈ names, AllOf isLetter name) (hfunction : AllOf isLetter function)
    (hne : function ≠ "") (hsource : Filler source) (htarget : Filler target) :
    (converterScript names function source target).Writes base base.length
      [⟨base, true, .defines function⟩] := by
  have hmember {name : String} (h : AllOf isLetter name) : Filler (member name) :=
    .of_token (allOf_member h) (by simp [member])
  have hcases : Writes (names.map fun name => .line s!"case {member name}: return {member name}")
      base (base.length + 1) [] :=
    map_plain fun name hname => plain_line ["case ", ": return ", ""]
      [⟨_, hmember (hnames name hname)⟩, ⟨_, hmember (hnames name hname)⟩]
        (by simp [String.append_assoc])
  have hswitch : Plain "switch value \x7b" := plain_fixed _ (by simp)
  have hbody := (cons (plain hswitch) hcases).append (plain plain_brace)
  have hblock := block (tells_converter hfunction hne hsource htarget) (by simp) hbody
  refine (hblock.append blank).of_eq ?_
  simp

/-- The name of a case may be empty, so it is no gap of a template. -/
theorem plain_case {name : String} (h : AllOf isLetter name) (index : Nat) :
    Plain ("case " ++ escaped name ++ " = " ++ index.repr) := by
  have htexts : AllOf isQuiet "case " ∧ AllOf isQuiet " = " := by decide
  have hname : AllOf isQuiet (escaped name) :=
    (allOf_escaped h).mono fun _ hc => isQuiet_of_isToken (isToken_of_isName hc)
  have hindex : Filler index.repr :=
    .of_ref (allOf_isLetter_repr index).ref (ne_empty_of_run (run_repr index))
  have hquiet : AllOf isQuiet ("case " ++ escaped name ++ " = " ++ index.repr) := by
    simp [htexts, hname, hindex.quiet]
  refine plain_of (tight (hquiet.mono fun _ => isInk_of_isQuiet) ?_ (ends_append _ hindex.ends)) ?_
    (.inl (not_open hquiet))
  · exact begins_append (begins_append (begins_append (by decide) _) _) _
  · exact isDull_append (isDull_append (isDull_append (by decide) _) _) _

theorem exists_item_of_mem_cases {items : List Item} {c : String × Int} (h : c ∈ cases items) :
    ∃ item ∈ items, c = (itemCase item.name, item.index) := by
  obtain ⟨item, hitem, rfl⟩ := List.mem_map.1 h
  exact ⟨item, (List.mergeSort_perm ..).mem_iff.1 hitem, rfl⟩

/-- What the lines of an enum and of its converters tell. -/
def enumMarks (d : Declaration) (base : List String) : List Mark :=
  [⟨base, true, .opens .enumeration d.names.wrapper⟩,
    ⟨base, true, .defines (d.names.wrapper ++ "Wrap")⟩,
    ⟨base, true, .defines (d.names.wrapper ++ "Unwrap")⟩]

/-- An enum and its two converters beside it. -/
theorem mem_enumMarks_iff {m : Mark} :
    m ∈ enumMarks d base ↔ m = ⟨base, true, .opens .enumeration d.names.wrapper⟩ ∨
      ∃ suffix ∈ ["Wrap", "Unwrap"], m = ⟨base, true, .defines (d.names.wrapper ++ suffix)⟩ := by
  simp [enumMarks]

/-- The lines of the cases of an enum. -/
def caseLines (items : List Item) : Script :=
  (cases items).map fun (name, index) => .line s!"case {escaped name} = {index}"

/-- The lines of cases tell nothing. -/
theorem writes_caseLines {items : List Item}
    (hitems : ∀ item ∈ items, AllOf isLetter item.name ∧ 0 ≤ item.index) {depth : Nat} :
    Writes (caseLines items) base depth [] := by
  refine map_plain fun c hc => ?_
  obtain ⟨item, hitem, rfl⟩ := exists_item_of_mem_cases hc
  obtain ⟨hname, hindex⟩ := hitems item hitem
  obtain ⟨n, hn⟩ := Int.eq_ofNat_of_zero_le hindex
  simp only [hn]
  exact plain_case hname.camelCase n

/-- The wrapper of an enum tells that there is one, and its converters. -/
theorem writes_enumScript {items : List Item} (hd : d.Spelled)
    (hitems : ∀ item ∈ items, AllOf isLetter item.name ∧ 0 ≤ item.index) :
    (enumScript d items).Writes base base.length (enumMarks d base) := by
  have htight : Sheet.Tight (s!"@objc public enum {d.names.wrapper}: Int32" ++ " \x7b") :=
    tight_line ["@objc public enum ", ": Int32 \x7b"] [⟨_, hd.filler_wrapper⟩]
      (by simp [String.append_assoc])
  have hnames : ∀ name ∈ (cases items).map Prod.fst, AllOf isLetter name := by
    intro name hname
    obtain ⟨c, hc, rfl⟩ := List.mem_map.1 hname
    obtain ⟨item, hitem, rfl⟩ := exists_item_of_mem_cases hc
    exact (hitems item hitem).1.camelCase
  have hsuffix : AllOf isLetter "Wrap" ∧ AllOf isLetter "Unwrap" := by decide
  have hconverter {suffix source target : String} (h : AllOf isLetter suffix) (hne : suffix ≠ "")
      (hsource : Filler source) (htarget : Filler target) :
      (converterScript ((cases items).map Prod.fst) (d.names.wrapper ++ suffix) source target).Writes
        base base.length [⟨base, true, .defines (d.names.wrapper ++ suffix)⟩] :=
    writes_converterScript hnames (allOf_append.2 ⟨hd.wrapper, h⟩) (by simp [hne]) hsource htarget
  have hwrap := hconverter hsuffix.1 (by decide) hd.filler_wire hd.filler_path
  have hunwrap := hconverter hsuffix.2 (by decide) hd.filler_path hd.filler_wire
  have hcases : Writes (caseLines items) (base ++ [d.names.wrapper]) (base.length + 1) [] :=
    writes_caseLines hitems
  have henum := wrapper htight (heading?_enum d.names.wrapper) hcases
  refine ((((cons (plain (plain_markLine hd)) blank).append henum).append
    (cons blank hwrap)).append hunwrap).of_eq ?_
  simp [enumMarks]

end Swift
end SwiftWrap
