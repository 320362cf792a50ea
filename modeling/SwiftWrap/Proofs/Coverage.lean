import SwiftWrap.Proofs.Conversions
import SwiftWrap.Proofs.Outline

/-! The conversions of a message and its fields.

A field stands in a wrapper class five times: as a property, as a parameter of the initializer,
in an assignment there, as an argument where a message has been read, and where one is built.
Each of the five comes from a loop of its own. `Output.wrappers_cover` says that they agree for
every text that can be linked and whose names are words: the class of a message, read back, has
the members that follow from its fields and the types of their properties (`Swift.membersOf`),
and no others. -/
namespace SwiftWrap
open Text Code

namespace Script

/-- A script that tells of no wrapper has no headings. -/
theorem Writes.heading?_eq_none {script : Script} {depth : Nat} {marks : List Mark}
    (h : Writes script [] depth marks)
    (hmarks : ∀ m ∈ marks, ∀ kind name, m.sign ≠ .opens kind name) :
    ∀ text ∈ script.texts, heading? text = none := by
  intro text htext
  have hanchored : Anchored [] depth [] := fun _ _ => rfl
  rw [← map_text_entries script depth, ← map_text_place []] at htext
  obtain ⟨line, hline, rfl⟩ := List.mem_map.1 htext
  cases hheading : heading? line.text with
  | none => rfl
  | some heading =>
    have hmark : line.mark? =
        some ⟨line.around, decide line.IsDirect, .opens heading.1 heading.2⟩ := by
      rw [Placed.mark?, sign?_of_heading hheading]
      rfl
    have hmem := List.mem_filterMap.2 ⟨line, hline, hmark⟩
    rw [h.reads [] hanchored] at hmem
    exact absurd rfl (hmarks _ hmem heading.1 heading.2)

/-- A part of a class without wrappers in it. -/
theorem Writes.no_wrappers {script : Script} {marks : List Mark} (depth : Nat)
    (h : Writes script [] depth marks) (hnested : Nested script)
    (hmarks : ∀ m ∈ marks, ∀ kind name, m.sign ≠ .opens kind name) :
    Gathers Block.wrappers script [] :=
  ⟨hnested, hnested.wrappers_eq_nil (h.heading?_eq_none hmarks)⟩

end Script

namespace Swift
open Script (Nested Gathers)
variable {s : Schema} {d : Declaration} {p : Prefixes}

/-! ### Members of a class -/

/-- The members of the class of a message that have to do with its fields. -/
def membersOf (s : Schema) (fields : List Field) : List Member :=
  (fields.map fun f => .property (propertyOf s f)) ++
    [.initializer (initializerOf s fields), .parser (parserOf s fields),
      .builder (fields.flatMap (buildsOf s))]

/-- What stands in the braces of a class. -/
def classBody (s : Schema) (id : Nat) (d : Declaration) (nested : Script) : Script :=
  .blank :: errorEnum d ++ nested ++ properties s d.fields ++ initializer s d.fields ++
    serializer ++ parsers s id d ++ builder s d ++ [.strip]

theorem messageScript_eq (s : Schema) (id : Nat) (d : Declaration) (nested : Script) :
    messageScript s id d nested = [.line (markLine d), .blank] ++
      Script.braced ("@objc public class " ++ d.names.wrapper ++ ": NSObject")
        (classBody s id d nested) ++ [.blank] :=
  rfl

theorem members_errorEnum (d : Declaration) : Gathers memberOf (errorEnum d) [] := by
  rw [errorEnum]
  split
  · simp only [toString_text, String.append_assoc]
    exact (no_member_braced (by decide) _ (.line _)).append .blank
  · exact .nil

theorem members_serializer : Gathers memberOf serializer [] := by
  have hobjc : memberOf (.leaf "@objc") = [] := by decide
  have hbytes : Gathers memberOf (Script.braced "public func serializedData() throws -> Data"
      [.line "return try self.asProtobuf.serializedData()"]) [] :=
    .braced memberOf_close (.line _) (by rw [Script.blocks_line]; decide)
  exact (Gathers.cons (.line hobjc) hbytes).append .blank

/-- **The body of a class holds the members for its fields, in order**, whatever is nested in
it. -/
theorem members_classBody {id : Nat} {nested : Script} (hd : d.Spelled)
    (hfields : ∀ f ∈ d.fields, f.Spelled s) (hnested : Gathers memberOf nested []) :
    Gathers memberOf (classBody s id d nested) (membersOf s d.fields) := by
  refine ((((((((Gathers.cons .blank (members_errorEnum d)).append hnested).append
    (members_properties hfields)).append (members_initializer hfields)).append
    members_serializer).append (members_parsers id hd hfields)).append
    (members_builder hfields)).append .strip).of_eq ?_
  simp [membersOf]

/-! ### Wrappers of a schema -/

theorem no_member_mark (d : Declaration) : Gathers memberOf [.line (markLine d), .blank] [] := by
  rw [markLine]
  exact (no_member_line (by decide) _).append .blank

/-- The members of a nested class are not those of the class around it. -/
theorem members_messageScript {id : Nat} {nested : Script}
    (hbody : Nested (classBody s id d nested)) :
    Gathers memberOf (messageScript s id d nested) [] := by
  rw [messageScript_eq, String.append_assoc]
  exact ((no_member_mark d).append (no_member_braced (by decide) _ hbody)).append .blank

theorem clash_append_left (lead : List Char) {first second : List Char}
    (h : clash first second = true) : clash (lead ++ first) (lead ++ second) = true := by
  induction lead with
  | nil => exact h
  | cons c rest ih =>
    rw [List.cons_append, List.cons_append, clash, ih, Bool.or_true]

/-- A function of another name is not the one that reads a message. -/
theorem clash_function {function : String} (h : AllOf isLetter function)
    (hne : function ≠ "parseProto") :
    ∀ start ∈ memberStarts,
      clash start.toList ("fileprivate class func " ++ (function ++ "(")).toList = true := by
  have hothers : ∀ start ∈ memberStarts, start = "fileprivate class func parseProto(" ∨
      clash start.toList "fileprivate class func ".toList = true := by
    decide
  intro start hstart
  rcases hothers start hstart with rfl | hclash
  · have hwords : "fileprivate class func parseProto(".toList =
        "fileprivate class func ".toList ++ ("parseProto".toList ++ '(' :: []) := by
      decide
    have hletters : AllOf isLetter "parseProto" ∧ isLetter '(' = false := by decide
    rw [hwords, String.toList_append, String.toList_append]
    refine clash_append_left _ (clash_of_run (fun c hc => hletters.1.mem hc) (fun c hc => h.mem hc)
      hletters.2 hletters.2 (.inl fun heq => hne ?_))
    exact (String.toList_inj.1 heq).symm
  · exact clash_start hclash _

theorem members_converterScript (names : List String) {function : String}
    (h : AllOf isLetter function) (hne : function ≠ "parseProto") (source target : String) :
    Gathers memberOf (converterScript names function source target) [] := by
  have hbody : Nested (.line "switch value \x7b" ::
      (names.map fun name => .line ("case " ++ member name ++ ": return " ++ member name)) ++
      [.line "\x7d"]) :=
    ((Nested.line _).cons (Nested.map_line ..).1).append (.line _)
  have hhead :
      "fileprivate class func " ++ function ++ "(_ value: " ++ source ++ ") -> " ++ target =
        "fileprivate class func " ++ (function ++ "(") ++
          ("_ value: " ++ (source ++ (") -> " ++ target))) := by
    have hwords : "(_ value: " = "(" ++ "_ value: " := by decide
    rw [hwords]
    simp only [String.append_assoc]
  rw [converterScript]
  simp only [toString_text]
  rw [hhead]
  exact (no_member_braced (clash_function h hne) _ hbody).append .blank

/-- An enum and its converters are no members that a message is read back from. -/
theorem members_enumScript (hd : d.Spelled) (items : List Item) :
    Gathers memberOf (enumScript d items) [] := by
  have hsuffix : ∀ suffix ∈ ["Wrap", "Unwrap"],
      AllOf isLetter suffix ∧ suffix.toList.getLast? = some 'p' := by
    decide
  have hconverter {suffix : String} (hmem : suffix ∈ ["Wrap", "Unwrap"]) (source target : String) :
      Gathers memberOf (converterScript ((cases items).map Prod.fst) (d.names.wrapper ++ suffix)
        source target) [] := by
    obtain ⟨hletters, hlast⟩ := hsuffix suffix hmem
    refine members_converterScript _ (allOf_append.2 ⟨hd.wrapper, hletters⟩) (fun heq => ?_) _ _
    have hend := getLast?_toList_append d.names.wrapper hlast
    rw [heq] at hend
    exact absurd hend (by decide)
  have hcases : Nested (caseLines items) := (Nested.map_line ..).1
  have henum : Gathers memberOf (Script.braced
      ("@objc public enum " ++ d.names.wrapper ++ ": Int32") (caseLines items)) [] := by
    rw [String.append_assoc]
    exact no_member_braced (by decide) _ hcases
  exact (((no_member_mark d).append henum).append
    (.cons .blank (hconverter (by decide) _ _))).append (hconverter (by decide) _ _)

theorem wrappers_close : (Block.leaf "\x7d").wrappers = [] := by
  rw [Script.wrappers_leaf, Script.wrapper?_eq_none (by decide)]
  rfl

section
variable {lead : String}
  (h : ∀ start ∈ ["@objc public class ", "@objc public enum "],
    clash start.toList lead.toList = true)
include h

theorem heading?_of_lead (rest : String) : heading? (lead ++ rest) = none :=
  heading?_of_clash (clash_start (h _ (by simp)) rest) (clash_start (h _ (by simp)) rest)

theorem wrappers_of_lead (rest : String) : (Block.leaf (lead ++ rest)).wrappers = [] := by
  rw [Script.wrappers_leaf, Script.wrapper?_eq_none (heading?_of_lead h rest)]
  rfl

theorem no_wrapper_braced (rest : String) {body : Script} (hbody : Gathers Block.wrappers body []) :
    Gathers Block.wrappers (Script.braced (lead ++ rest) body) [] := by
  refine .braced wrappers_close hbody.nested ?_
  rw [String.append_assoc, Block.wrappers, Script.wrapper?_eq_none (heading?_of_lead h _),
    hbody.found]
  rfl

end

/-- A block with a heading is a wrapper, before those inside it. -/
theorem wrappers_braced {head name : String} {kind : Kind} {body : Script} {inner : List Wrapper}
    (h : heading? (head ++ " \x7b") = some (kind, name))
    (hbody : Gathers Block.wrappers body inner) :
    Gathers Block.wrappers (Script.braced head body) (⟨kind, name, body.blocks⟩ :: inner) := by
  refine .braced wrappers_close hbody.nested ?_
  rw [Block.wrappers, wrapper?, h, hbody.found]
  rfl

theorem no_wrapper_mark (d : Declaration) :
    Gathers Block.wrappers [.line (markLine d), .blank] [] :=
  Gathers.append (.line (wrappers_of_lead (by decide) _)) .blank

theorem no_wrapper_caseLines (items : List Item) : Gathers Block.wrappers (caseLines items) [] := by
  refine .map_silent fun c _ => ?_
  rw [String.append_assoc, String.append_assoc]
  exact wrappers_of_lead (by decide) _

theorem no_wrapper_converterScript (names : List String) (function source target : String) :
    Gathers Block.wrappers (converterScript names function source target) [] := by
  have hswitch : Gathers Block.wrappers [.line "switch value \x7b"] [] :=
    .line (by rw [Script.wrappers_leaf, Script.wrapper?_eq_none (by decide)]; rfl)
  have hcases : Gathers Block.wrappers
      (names.map fun name => .line s!"case {member name}: return {member name}") [] := by
    refine .map_silent fun name _ => ?_
    rw [String.append_assoc, String.append_assoc]
    exact wrappers_of_lead (by decide) _
  have hbody := ((Gathers.cons hswitch hcases).append (.line wrappers_close))
  rw [converterScript]
  simp only [toString_text, String.append_assoc] at hbody ⊢
  exact (no_wrapper_braced (by decide) _ hbody).append .blank

/-- An enum is one wrapper. -/
theorem wrappers_enumScript (d : Declaration) (items : List Item) :
    Gathers Block.wrappers (enumScript d items)
      [⟨.enumeration, d.names.wrapper, (caseLines items).blocks⟩] := by
  have henum := wrappers_braced (heading?_enum d.names.wrapper) (no_wrapper_caseLines items)
  exact (((no_wrapper_mark d).append henum).append
    (.cons .blank (no_wrapper_converterScript ..))).append (no_wrapper_converterScript ..)

/-- A message is one wrapper, followed by those nested in it. -/
theorem wrappers_messageScript {id : Nat} {nested : Script} {inner : List Wrapper} (hd : d.Spelled)
    (hfields : ∀ f ∈ d.fields, f.Spelled s) (herror : AllOf isRef (errorRef s id))
    (hne : errorRef s id ≠ "") (hnested : Gathers Block.wrappers nested inner) :
    Gathers Block.wrappers (messageScript s id d nested)
      (⟨.message, d.names.wrapper, (classBody s id d nested).blocks⟩ :: inner) := by
  have herrorEnum : Gathers Block.wrappers (errorEnum d) [] :=
    (writes_errorEnum hd).no_wrappers 0 (members_errorEnum d).nested (by split <;> simp)
  have hproperties : Gathers Block.wrappers (properties s d.fields) [] :=
    (writes_properties hfields).no_wrappers 0 (members_properties hfields).nested (by simp)
  have hinitializer : Gathers Block.wrappers (initializer s d.fields) [] :=
    (writes_initializer hfields).no_wrappers 0 (members_initializer hfields).nested (by simp)
  have hserializer : Gathers Block.wrappers serializer [] :=
    writes_serializer.no_wrappers 0 members_serializer.nested (by simp)
  have hreads : ∀ m ∈ ⟨[], true, .defines "parseProto"⟩ ::
        d.fields.flatMap (readMarks s (errorRef s id) []),
      ∀ kind name, m.sign ≠ .opens kind name := by
    refine List.forall_mem_cons.2 ⟨by simp, fun m hm => ?_⟩
    obtain ⟨f, -, hm⟩ := List.mem_flatMap.1 hm
    rcases mem_readMarks_iff.1 hm with ⟨-, rfl⟩ | ⟨ref, -, rfl⟩ <;> simp
  have hbuilds : ∀ m ∈ d.fields.flatMap fun f =>
      (builds s f).map fun ref => (⟨[], false, .calls ref⟩ : Mark),
      ∀ kind name, m.sign ≠ .opens kind name := by
    intro m hm
    obtain ⟨f, -, hm⟩ := List.mem_flatMap.1 hm
    obtain ⟨ref, -, rfl⟩ := List.mem_map.1 hm
    simp
  have hparsers : Gathers Block.wrappers (parsers s id d) [] :=
    (writes_parsers hd hfields herror hne).no_wrappers 0 (members_parsers id hd hfields).nested
      hreads
  have hbuilder : Gathers Block.wrappers (builder s d) [] :=
    (writes_builder hd hfields).no_wrappers 0 (members_builder hfields).nested hbuilds
  have hbody : Gathers Block.wrappers (classBody s id d nested) inner := by
    refine ((((((((Gathers.cons .blank herrorEnum).append hnested).append hproperties).append
      hinitializer).append hserializer).append hparsers).append hbuilder).append .strip).of_eq ?_
    simp
  refine (((no_wrapper_mark d).append
    (wrappers_braced (heading?_class d.names.wrapper) hbody)).append .blank).of_eq ?_
  simp

/-- What stands in the braces of a wrapper. -/
def bodyScript (s : Schema) (id : Nat) (d : Declaration) (nested : Script) : Script :=
  match d.body with
  | .message .. => classBody s id d nested
  | .enumeration items => caseLines items

/-- The wrapper of a declaration, with what is nested in it. -/
def wrapperAt (s : Schema) (id : Nat) : Wrapper :=
  s.viewAt id ⟨.message, "", []⟩ fun d => ⟨d.kind, d.names.wrapper,
    (bodyScript s id d (d.children.flatMap (s.collect (declarationScript s)))).blocks⟩

/-- What stands at a number is the wrapper of the declaration with that number. -/
theorem wrapperAt_of_get? {id : Nat} (hd : s.get? id = some d) :
    wrapperAt s id = ⟨d.kind, d.names.wrapper,
      (bodyScript s id d (d.children.flatMap (s.collect (declarationScript s)))).blocks⟩ :=
  Schema.viewAt_of_get? hd ..

/-- The script of a declaration has no members of the class around it, and the wrappers from the
declaration down, in the order of the source. -/
theorem gathers_collect (h : s.Linked p) (hw : s.Worded p) (id : Nat) :
    Gathers memberOf (s.collect (declarationScript s) id) [] ∧
      Gathers Block.wrappers (s.collect (declarationScript s) id)
        ((s.subtree id).map (wrapperAt s)) := by
  induction id using s.downward_induction with
  | step id ih =>
    cases hd : s.get? id with
    | none =>
      rw [Schema.subtree, Schema.collect_of_none hd, Schema.collect_of_none hd]
      exact ⟨.nil, .nil⟩
    | some d =>
      have hspelled := h.spelled hw hd
      have hfields : ∀ f ∈ d.fields, f.Spelled s := fun f hf => h.spelled_field hw hd hf
      obtain ⟨herror, hne⟩ := allOf_errorRef h hw (Schema.lt_of_get? hd)
      have hchildren : ∀ c ∈ d.children, _ ∧ _ := fun c hc =>
        ih (Schema.lt_of_get? hd) c (h.forest.isParent_lt ((h.forest.mem_children_iff hd).1 hc)).1
      have hmembers : Gathers memberOf (d.children.flatMap (s.collect (declarationScript s))) [] :=
        (Gathers.flatMap fun c hc => (hchildren c hc).1).of_eq
          (List.flatMap_eq_nil_iff.2 fun _ _ => rfl)
      have hwrappers := Gathers.flatMap fun c hc => (hchildren c hc).2
      rw [← List.map_flatMap] at hwrappers
      rw [Schema.subtree, h.forest.ascending.collect_eq hd, h.forest.ascending.collect_eq hd,
        List.map_cons, wrapperAt_of_get? hd, declarationScript, bodyScript]
      cases hbody : d.body with
      | message children fields =>
        have hkind : d.kind = .message := by rw [Declaration.kind, hbody]; rfl
        rw [hkind]
        exact ⟨members_messageScript (members_classBody hspelled hfields hmembers).nested,
          wrappers_messageScript hspelled hfields herror hne hwrappers⟩
      | enumeration items =>
        have hkind : d.kind = .enumeration := by rw [Declaration.kind, hbody]; rfl
        have hnone : d.children = [] := by rw [Declaration.children, hbody]; rfl
        rw [hkind, hnone]
        exact ⟨members_enumScript hspelled items, wrappers_enumScript d items⟩

/-- The class of a message has the members for its fields, whatever is nested in it. -/
theorem members_wrapperAt (h : s.Linked p) (hw : s.Worded p) {id : Nat} (hd : s.get? id = some d)
    (hkind : d.kind = .message) :
    (wrapperAt s id).body.filterMap member? = membersOf s d.fields := by
  have hnested : Gathers memberOf (d.children.flatMap (s.collect (declarationScript s))) [] :=
    (Gathers.flatMap fun c _ => (gathers_collect h hw c).1).of_eq
      (List.flatMap_eq_nil_iff.2 fun _ _ => rfl)
  have hclass : Gathers memberOf (classBody s id d
      (d.children.flatMap (s.collect (declarationScript s)))) (membersOf s d.fields) :=
    members_classBody (h.spelled hw hd) (fun f hf => h.spelled_field hw hd hf) hnested
  rw [wrapperAt_of_get? hd, List.filterMap_eq_flatMap_toList, bodyScript]
  cases hbody : d.body with
  | message children fields => exact hclass.found
  | enumeration items =>
    rw [Declaration.kind, hbody] at hkind
    cases hkind

/-- **The wrappers of generated code are those of the declarations**, in the order of the
source. -/
theorem wrappers_code (h : s.Linked p) (hw : s.Worded p) :
    Code.wrappers (code s) = (List.range s.declarations.length).map (wrapperAt s) := by
  have hbanner : Gathers Block.wrappers [.lines banner] [] :=
    ⟨.lines banner, Nested.wrappers_eq_nil (.lines banner) (by decide +kernel)⟩
  have hall : Gathers Block.wrappers (script s) (s.listed.map (wrapperAt s)) := by
    refine (Gathers.cons hbanner (.flatMap fun root _ => (gathers_collect h hw root).2)).of_eq ?_
    rw [List.nil_append, Schema.listed, List.map_flatMap]
  rw [Code.wrappers, code, Code.lines_text (writes_script h hw).tight, ← h.forest.preorder]
  exact hall.found

end Swift

/-- **The conversions of a message cover its fields.** For every text that can be linked and
whose names are words, there is generated code with one wrapper for each declaration. The wrapper
of a message is a class whose members are those that its fields ask for, and no others: each field
has its property, parameter, assignment, argument and value for the wire, in order and once, and
the type of the property decides how it is read and built. -/
theorem Output.wrappers_cover {p : Prefixes} {text : String} {s : Schema}
    (h : Schema.linkedOfText p text = .ok s) (hw : s.Worded p) :
    ∃ code, Output.wrappers p text = .ok code ∧
      (Code.wrappers code).length = s.declarations.length ∧
      ∀ id d, s.get? id = some d → d.kind = .message →
        ∃ body, (Code.wrappers code)[id]? = some ⟨.message, d.names.wrapper, body⟩ ∧
          body.filterMap Code.member? = Swift.membersOf s d.fields := by
  have hlinked := Schema.linked_of_text h
  refine ⟨Swift.code s, by rw [Output.wrappers, h]; rfl, ?_, fun id d hd hkind => ?_⟩
  · rw [Swift.wrappers_code hlinked hw, List.length_map, List.length_range]
  · refine ⟨(Swift.wrapperAt s id).body, ?_, Swift.members_wrapperAt hlinked hw hd hkind⟩
    rw [Swift.wrappers_code hlinked hw, List.getElem?_map,
      List.getElem?_range (Schema.lt_of_get? hd), Option.map_some, Swift.wrapperAt_of_get? hd,
      hkind]

/-- A nested message with a field that must be there, one that may be missing, under a reserved
word, and a list. -/
def Document.entrySample : Document where
  package := none
  roots := .message "note" []
    (.enumeration "Kind" [⟨"first_one", 0⟩]
      (.message "entry" [.declare (some .required) "uint64" "size" 1 none,
        .declare (some .optional) "note" "in" 2 none,
        .declare (some .repeated) "Kind" "kinds" 3 none] .nil .nil)) .nil

def entryText : String :=
  "message note \x7b\n enum Kind \x7b\n first_one = 0;\n \x7d\n message entry \x7b\n" ++
    " required uint64 size = 1;\n optional note in = 2;\n repeated Kind kinds = 3;\n \x7d\n\x7d\n"

/-- The members of the nested message. -/
def entryMembers : List Member :=
  [.property ⟨true, "size", "UInt64"⟩, .property ⟨true, "`in`", "PNote?"⟩,
    .property ⟨false, "kinds", "[PNote.PNoteKind]"⟩,
    .initializer ⟨false,
      [("size", "UInt64"), ("`in`", "PNote?"), ("kinds", "[PNote.PNoteKind]")],
      [("size", "size"), ("in", "`in`"), ("kinds", "kinds")]⟩,
    .parser ⟨[.guards "Size", .reads none "size" "size", .reads (some "In") "`in`" "in",
        .reads none "kindsWrapped" "kinds"],
      [("size", "size"), ("in", "`in`"), ("kinds", "kindsWrapped")]⟩,
    .builder [.sets false "size" "size", .sets true "in" "in",
      .loops "kindsUnwrapped" "kinds", .sets false "kinds" "kindsUnwrapped"]]

theorem Output.wrappers_cover_entry :
    Schema.linkedOfText ⟨"P", "W"⟩ entryText =
        .ok (Document.entrySample.toSchema.link ⟨"P", "W"⟩).schema ∧
      ∃ code body, Output.wrappers ⟨"P", "W"⟩ entryText = .ok code ∧
        (Code.wrappers code)[2]? = some ⟨.message, "PNoteEntry", body⟩ ∧
        body.filterMap Code.member? = entryMembers := by
  have h : Schema.linkedOfText ⟨"P", "W"⟩ entryText =
      .ok (Document.entrySample.toSchema.link ⟨"P", "W"⟩).schema := by decide +kernel
  have hw : (Document.entrySample.toSchema.link ⟨"P", "W"⟩).schema.Worded ⟨"P", "W"⟩ := {
    names := by decide +kernel
    wrapper := List.all_eq_true.1 (by decide)
    wire := List.all_eq_true.1 (by decide) }
  have hentry : ((Document.entrySample.toSchema.link ⟨"P", "W"⟩).schema.get? 2).map (fun d =>
      (d.kind, d.names.wrapper,
        Swift.membersOf (Document.entrySample.toSchema.link ⟨"P", "W"⟩).schema d.fields)) =
      some (.message, "PNoteEntry", entryMembers) := by
    decide +kernel
  obtain ⟨d, hd, heq⟩ := Option.map_eq_some_iff.1 hentry
  simp only [Prod.mk.injEq] at heq
  obtain ⟨hkind, hwrapper, hmembers⟩ := heq
  obtain ⟨code, hcode, -, hcover⟩ := Output.wrappers_cover h hw
  obtain ⟨body, hbody, hread⟩ := hcover 2 d hd hkind
  exact ⟨h, code, body, hcode, hwrapper ▸ hbody, hread.trans hmembers⟩

end SwiftWrap
