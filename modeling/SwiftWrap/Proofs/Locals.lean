import SwiftWrap.Proofs.Linked
import SwiftWrap.Proofs.Members

/-! Names in the code that converts a message.

A message is read and built by statements that use one parameter each, `proto` and `builder`, and
introduce names for the fields beside it. Field names are all different, but what is written for a
field is its name as it is, in backticks, or with an ending, and fixed names stand in the same code.

`Code.parserLocals` and `Code.builderLocals` read from the blocks which names stand together.
`Swift.locals_distinct_iff` says for each message which ones they are, and exactly when a name
stands for two things. `Swift.locals_distinct_fails` has messages in which one does. -/
namespace SwiftWrap
open Text

namespace Code

/-- How a statement introduces a name. -/
inductive Binding where
  /-- A local value or variable. -/
  | declares (name : String)
  /-- A value that is there, for one block of statements. -/
  | unwraps (name : String)
deriving DecidableEq

def Binding.name : Binding → String
  | declares name => name
  | unwraps name => name

def Binding.declared? : Binding → Option String
  | declares name => some name
  | unwraps _ => none

/-- The name at the beginning of a text. -/
def leadingName (rest : List Char) : String := .ofList (rest.takeWhile isName)

/-- The names that a statement introduces. -/
def bindings (b : Block) : List Binding :=
  (((after? "let ".toList b.head.toList).or (after? "var ".toList b.head.toList)).map fun rest =>
    .declares (leadingName rest)).toList ++
  ((after? "if let ".toList b.head.toList).map fun rest => .unwraps (leadingName rest)).toList

/-- A parameter and the names that are introduced beside it. -/
structure Locals where
  parameter : String
  bindings : List Binding
deriving DecidableEq

/-- The names beside the parameter that a text begins with. -/
def localsOf (rest : List Char) (statements : List Block) : Locals :=
  ⟨leadingName rest, statements.flatMap bindings⟩

/-- The names in the function that reads a message. -/
def parserLocals (b : Block) : List Locals :=
  ((after? "fileprivate class func parseProto(_ ".toList b.head.toList).map fun rest =>
    localsOf rest b.inner).toList

/-- The names in a closure with one parameter. -/
def closureLocals (b : Block) : List Locals :=
  ((between? "" ") in" (.ofList (argument b.head))).map fun rest =>
    localsOf rest.toList b.inner).toList

/-- The names in the closures where a message is built. -/
def builderLocals (b : Block) : List Locals :=
  (after? "fileprivate var asProtobuf: ".toList b.head.toList).toList.flatMap fun _ =>
    b.inner.flatMap closureLocals

namespace Locals

/-- The names of local values and variables. -/
def declared (l : Locals) : List String := l.bindings.filterMap Binding.declared?

/-- No name stands for two things: nothing has the name of the parameter, and no two local values
have the same name. -/
structure Distinct (l : Locals) : Prop where
  kept : ∀ b ∈ l.bindings, b.name ≠ l.parameter
  apart : l.declared.Nodup

instance (l : Locals) : Decidable l.Distinct :=
  decidable_of_iff ((∀ b ∈ l.bindings, b.name ≠ l.parameter) ∧ l.declared.Nodup)
    ⟨fun h => ⟨h.1, h.2⟩, fun h => ⟨h.kept, h.apart⟩⟩

end Locals

/-! ### Reading statements -/

/-- A name is read up to the first character that cannot stand in one. -/
theorem leadingName_append {name rest : String} (hname : AllOf isName name)
    (hrest : Stops isName rest.toList) : leadingName (name ++ rest).toList = name := by
  rw [leadingName, String.toList_append, takeWhile_run (fun c hc => hname.mem hc) hrest,
    String.ofList_toList]

theorem stops_lead {lead : String} (h : lead.toList.head?.any (!isName ·) = true) (rest : String) :
    Stops isName (lead ++ rest).toList := by
  rw [String.toList_append]
  cases hlead : lead.toList with
  | nil => simp [hlead] at h
  | cons c cs =>
    rw [hlead] at h
    exact stops_cons.2 (by simpa using h)

/-- What the statements begin with that introduce names. -/
def bindingStarts : List String := ["let ", "var ", "if let "]

theorem bindings_of_lead {lead : String}
    (h : ∀ start ∈ bindingStarts, clash start.toList lead.toList = true) (rest : String)
    (inner : List Block) : bindings ⟨lead ++ rest, inner⟩ = [] := by
  simp only [bindingStarts, List.forall_mem_cons] at h
  obtain ⟨hlet, hvar, hif, -⟩ := h
  rw [bindings, after?_of_clash (clash_start hlet rest), after?_of_clash (clash_start hvar rest),
    after?_of_clash (clash_start hif rest)]
  rfl

section
variable {name rest : String} (hname : AllOf isName name) (hrest : Stops isName rest.toList)
include hname hrest

theorem bindings_let (inner : List Block) :
    bindings ⟨"let " ++ (name ++ rest), inner⟩ = [.declares name] := by
  have hif : after? "if let ".toList ("let " ++ (name ++ rest)).toList = none :=
    after?_of_clash (clash_start (by decide) _)
  rw [bindings, after?_eq_some_iff.2 (String.toList_append ..), hif, Option.some_or,
    Option.map_some, leadingName_append hname hrest]
  rfl

theorem bindings_var (inner : List Block) :
    bindings ⟨"var " ++ (name ++ rest), inner⟩ = [.declares name] := by
  have hlet : after? "let ".toList ("var " ++ (name ++ rest)).toList = none :=
    after?_of_clash (clash_start (by decide) _)
  have hif : after? "if let ".toList ("var " ++ (name ++ rest)).toList = none :=
    after?_of_clash (clash_start (by decide) _)
  rw [bindings, hlet, hif, after?_eq_some_iff.2 (String.toList_append ..), Option.none_or,
    Option.map_some, leadingName_append hname hrest]
  rfl

theorem bindings_if (inner : List Block) :
    bindings ⟨"if let " ++ (name ++ rest), inner⟩ = [.unwraps name] := by
  have hlet : after? "let ".toList ("if let " ++ (name ++ rest)).toList = none :=
    after?_of_clash (clash_start (by decide) _)
  have hvar : after? "var ".toList ("if let " ++ (name ++ rest)).toList = none :=
    after?_of_clash (clash_start (by decide) _)
  rw [bindings, hlet, hvar, after?_eq_some_iff.2 (String.toList_append ..), Option.map_some,
    leadingName_append hname hrest]
  rfl

end

theorem bindings_close : bindings (.leaf "\x7d") = [] := by decide

end Code

theorem Schema.letters_fieldNames {p : Prefixes} {text : String} {s : Schema}
    (h : linkedOfText p text = .ok s) {id : Nat} {d : Declaration} (hd : s.get? id = some d) :
    ∀ f ∈ d.fields, AllOf isLetter f.name := fun f hf =>
  allOf_isLetter_of_run ((linked_of_text h).fieldNames id d hd f hf)

namespace Swift
open Code
open Script (Nested Gathers)
variable {s : Schema} {f : Field} {d : Declaration}

theorem no_binding_line {lead : String}
    (h : ∀ start ∈ bindingStarts, clash start.toList lead.toList = true) (rest : String) :
    Gathers bindings [.line (lead ++ rest)] [] :=
  .line (bindings_of_lead h rest [])

theorem no_binding_braced {lead : String}
    (h : ∀ start ∈ bindingStarts, clash start.toList lead.toList = true) (rest : String)
    {body : Script} (hbody : Nested body) :
    Gathers bindings (Script.braced (lead ++ rest) body) [] :=
  .braced_of_lead bindings_close (bindings_of_lead h) rest hbody

/-! ### From the wire -/

theorem bindings_requiredGuard (error : String) (d : Declaration) (f : Field) :
    Gathers bindings (requiredGuard error d f) [] := by
  rw [requiredGuard]
  split
  · simp only [toString_text, String.append_assoc]
    exact no_binding_braced (by decide) _ (.line _)
  · exact .nil

/-- Reading a field declares one variable, its own. -/
theorem bindings_readField (h : AllOf isLetter f.name) :
    Gathers bindings (readField s f) [.declares (readLocal f)] := by
  have hlet (rest : String) :
      Gathers bindings [.line ("let " ++ (readLocal f ++ (" = " ++ rest)))]
        [.declares (readLocal f)] :=
    .line (bindings_let (allOf_readLocal h) (stops_lead (by decide) _) [])
  have hvar (lead rest : String) (hlead : lead.toList.head?.any (!isName ·) = true) :
      Gathers bindings [.line ("var " ++ (readLocal f ++ (lead ++ rest)))]
        [.declares (readLocal f)] :=
    .line (bindings_var (allOf_readLocal h) (stops_lead hlead _) [])
  rw [readField]
  simp only [toString_text, String.append_assoc]
  split
  · exact (hvar _ _ (by decide)).cons (no_binding_braced (by decide) _ (.line _))
  · next hplain =>
    have heq : readLocal f = escaped f.name := if_neg hplain
    rw [← heq]
    split
    · exact hlet _
    · split
      · exact (hvar _ _ (by decide)).cons (no_binding_braced (by decide) _ (.line _))
      · exact hlet _

/-- The names where the fields of a message are read. -/
def readLocals (fields : List Field) : Locals :=
  ⟨"proto", fields.map fun f => .declares (readLocal f)⟩

theorem parserLocals_eq (rest : String) (inner : List Block) :
    parserLocals ⟨"fileprivate class func parseProto(_ proto: " ++ rest, inner⟩ =
      [⟨"proto", inner.flatMap bindings⟩] := by
  have hwords : "fileprivate class func parseProto(_ proto: " ++ rest =
      "fileprivate class func parseProto(_ " ++ ("proto" ++ (": " ++ rest)) := by
    rw [← String.append_assoc, ← String.append_assoc]
    rfl
  have hname : leadingName ("proto" ++ (": " ++ rest)).toList = "proto" :=
    leadingName_append (by decide) (stops_lead (by decide) rest)
  rw [hwords, parserLocals, after?_eq_some_iff.2 (String.toList_append ..), Option.map_some,
    localsOf, hname]
  rfl

theorem bindings_fields (s : Schema) (id : Nat) (h : ∀ f ∈ d.fields, AllOf isLetter f.name) :
    Gathers bindings (d.fields.flatMap fun f =>
        requiredGuard (errorRef s id) d f ++ readField s f ++ [.blank])
      (d.fields.map fun f => .declares (readLocal f)) := by
  rw [List.map_eq_flatMap]
  refine .flatMap fun f hf => ?_
  exact ((bindings_requiredGuard ..).append (bindings_readField (h f hf))).append .blank

/-- The function that reads a message introduces one local for each field. -/
theorem locals_parsers (id : Nat) (h : ∀ f ∈ d.fields, AllOf isLetter f.name) :
    Gathers parserLocals (parsers s id d) [readLocals d.fields] := by
  have hobjc : parserLocals (.leaf "@objc") = [] := by decide
  have hclose : parserLocals (.leaf "\x7d") = [] := by decide
  have hdata (text : String) : Gathers parserLocals
      (Script.braced ("public class func parseData(_ serializedData: Data) throws -> " ++
        d.names.path) [.line text, .line "return try parseProto(proto)"]) [] := by
    refine .braced_of_lead hclose (fun rest inner => ?_) _ ((Nested.line _).cons (.line _))
    rw [parserLocals, after?_of_clash (clash_start (by decide) _)]
    rfl
  have hproto (arguments : String) : Gathers parserLocals
      (Script.braced ("fileprivate class func parseProto(_ proto: " ++ d.names.wire ++
          ") throws -> " ++ d.names.path)
        ((d.fields.flatMap fun f =>
            requiredGuard (errorRef s id) d f ++ readField s f ++ [.blank]) ++
          [.line ("return " ++ arguments)])) [readLocals d.fields] := by
    have hreturn : Gathers bindings [.line ("return " ++ arguments)] [] :=
      no_binding_line (by decide) arguments
    have hbody := (bindings_fields s id h).append hreturn
    refine .braced hclose hbody.nested ?_
    rw [String.append_assoc, String.append_assoc, String.append_assoc, parserLocals_eq, hbody.found,
      List.append_nil, readLocals]
  rw [parsers]
  simp only [toString_text]
  exact ((Gathers.cons (.line hobjc) (hdata _)).append (.cons .blank (hproto _))).append .blank

/-! ### To the wire -/

/-- The names where a field is built for the wire. -/
def buildBindings (f : Field) : List Binding :=
  if f.isList then [.declares (f.name ++ "Unwrapped")]
  else if f.isOptional then [.unwraps (escaped f.name)]
  else []

/-- Handing a list over declares a variable; an optional field is unwrapped under its own name.
-/
theorem bindings_buildField (h : AllOf isLetter f.name) :
    Gathers bindings (buildField s f) (buildBindings f) := by
  have hlist : AllOf isName (f.name ++ "Unwrapped") :=
    (allOf_append.2 ⟨h, by decide⟩ : AllOf isLetter (f.name ++ "Unwrapped")).mono
      fun _ => isName_of_isLetter
  rw [buildField, buildBindings]
  simp only [toString_text, String.append_assoc]
  split
  · have hvar (rest : String) :
        Gathers bindings [.line ("var " ++ (f.name ++ ("Unwrapped = [" ++ rest)))]
          [.declares (f.name ++ "Unwrapped")] := by
      have hwords : f.name ++ ("Unwrapped = [" ++ rest) =
          f.name ++ "Unwrapped" ++ (" = [" ++ rest) := by
        rw [String.append_assoc, ← @String.append_assoc "Unwrapped"]
        rfl
      rw [hwords]
      exact .line (bindings_var hlist (stops_lead (by decide) _) [])
    exact ((hvar _).cons (no_binding_braced (by decide) _ (.line _))).append
      (no_binding_line (by decide) _)
  · split
    · refine .braced bindings_close (.line _) ?_
      simp only [String.append_assoc]
      exact bindings_if (allOf_escaped h) (stops_lead (by decide) _) _
    · exact no_binding_line (by decide) _

/-- The names where the fields of a message are built for the wire. -/
def buildLocals (fields : List Field) : Locals := ⟨"builder", fields.flatMap buildBindings⟩

theorem closureLocals_eq (lead : String) (inner : List Block) :
    closureLocals ⟨lead ++ "\x7b (builder) in", inner⟩ =
      [⟨"builder", inner.flatMap bindings⟩] := by
  have hwords : lead ++ "\x7b (builder) in" = (lead ++ "\x7b ") ++ ("(" ++ "builder) in") := by
    rw [String.append_assoc]
    rfl
  have hargument : argument (lead ++ "\x7b (builder) in") = "builder) in".toList := by
    rw [hwords, argument_append (by decide)]
  rw [closureLocals, hargument, String.ofList_toList,
    between?_eq (by decide : "builder) in" = "" ++ "builder" ++ ") in")]
  rfl

/-- A message with fields is built in one closure. -/
theorem locals_builder (h : ∀ f ∈ d.fields, AllOf isLetter f.name) :
    Gathers builderLocals (builder s d)
      (if d.fields.isEmpty then [] else [buildLocals d.fields]) := by
  have hclose : builderLocals (.leaf "\x7d") = [] := by decide
  have hvalue {body : Script} {found : List Locals} (hbody : Gathers closureLocals body found) :
      Gathers builderLocals
        (Script.braced ("fileprivate var asProtobuf: " ++ d.names.wire) body ++ [.blank])
        found := by
    refine (Gathers.append (.braced hclose hbody.nested ?_) .blank).of_eq (List.append_nil _)
    rw [String.append_assoc, builderLocals, after?_eq_some_iff.2 (String.toList_append ..),
      Option.toList_some, List.flatMap_singleton, hbody.found]
  rw [builder]
  simp only [toString_text]
  apply hvalue
  split
  · have hcall : "()" = "(" ++ ")" := by decide
    have hargument : argument ("return " ++ d.names.wire ++ "()") = ")".toList := by
      rw [hcall]
      exact argument_append (by decide) _
    have hnone : between? "" ") in" (.ofList ")".toList) = none := by decide
    refine .line ?_
    rw [closureLocals, Block.leaf, hargument, hnone]
    rfl
  · have hfields : Gathers bindings (d.fields.flatMap fun f => buildField s f ++ [.blank])
        (d.fields.flatMap buildBindings) :=
      .flatMap fun f hf => ((bindings_buildField (h f hf)).append .blank).of_eq (List.append_nil _)
    have hwith : Gathers closureLocals ([.line ("let proto = " ++ d.names.wire ++ ".with " ++
        "\x7b (builder) in")] ++ (.indent ::
          ((d.fields.flatMap fun f => buildField s f ++ [.blank]) ++ [.strip]) ++ [.dedent]))
        [buildLocals d.fields] := by
      have hinner := (hfields.append .strip).of_eq (List.append_nil _)
      refine .block hinner.nested ?_
      rw [closureLocals_eq, hinner.found, buildLocals]
    have hbrace : Gathers closureLocals [.line "\x7d"] [] := .line (by decide)
    have hreturn : Gathers closureLocals [.line "return proto"] [] := .line (by decide)
    have hend := Gathers.cons hbrace (.cons .blank hreturn)
    simpa using hwith.append hend

/-! ### Names that are the same -/

theorem append_ne {ending word : String} (h : ¬ending.toList <:+ word.toList) (name : String) :
    name ++ ending ≠ word := by
  rintro rfl
  exact h ⟨name.toList, (String.toList_append ..).symm⟩

theorem isReserved_wrapped (name : String) : isReserved (name ++ "Wrapped") = false := by
  have hnone : ∀ word ∈ reservedWords, ¬"Wrapped".toList <:+ word.toList := by decide +kernel
  refine Bool.eq_false_iff.2 fun h => ?_
  exact append_ne (hnone _ (List.contains_iff_mem.1 h)) name rfl

/-- Backticks are in no other name. -/
theorem ticked_ne {word : String} (h : AllOf isLetter word) (name : String) :
    ticked name ≠ word := by
  rintro rfl
  have htick : '`' ∈ (ticked name).toList := by simp [ticked]
  exact absurd (h.mem htick) (by decide)

/-- A name that is escaped equals a word that is not reserved only if it is that word. -/
theorem escaped_eq_iff {name word : String} (hword : AllOf isLetter word)
    (hfree : isReserved word = false) : escaped name = word ↔ name = word := by
  rw [escaped]
  split
  · next hname =>
    refine iff_of_false (ticked_ne hword name) ?_
    rintro rfl
    rw [hfree] at hname
    cases hname
  · rfl

/-- Escaping keeps names apart. -/
theorem escaped_inj {name other : String} (hname : AllOf isLetter name)
    (hother : AllOf isLetter other) (h : escaped name = escaped other) : name = other := by
  rw [escaped, escaped] at h
  split at h
  · split at h
    · simpa [ticked] using h
    · exact absurd h (ticked_ne hother name)
  · split at h
    · exact absurd h.symm (ticked_ne hname other)
    · exact h

/-- The variable of a field hides the argument exactly if the field has its name and is not
converted. -/
theorem readLocal_eq_proto_iff : readLocal f = "proto" ↔
    f.name = "proto" ∧ isConvertedList f = false := by
  rw [readLocal]
  split
  · next hconverted =>
    exact iff_of_false (append_ne (by decide) f.name) fun h => by simp [hconverted] at h
  · next hplain =>
    rw [escaped_eq_iff (by decide) (by decide), and_iff_left (Bool.eq_false_iff.2 hplain)]

/-- A field has the local of a list that is converted if its name is that of the list with the
ending. -/
theorem readLocal_eq_iff_of_converted {g : Field} (h : AllOf isLetter f.name)
    (hf : isConvertedList f = true) (hg : isConvertedList g = false) :
    readLocal g = readLocal f ↔ g.name = f.name ++ "Wrapped" := by
  have hletters : AllOf isLetter (f.name ++ "Wrapped") := allOf_append.2 ⟨h, by decide⟩
  rw [readLocal, readLocal, if_pos hf, if_neg (Bool.eq_false_iff.1 hg),
    escaped_eq_iff hletters (isReserved_wrapped f.name)]

section
variable {fields : List Field} (hletters : ∀ f ∈ fields, AllOf isLetter f.name)
  (hnames : (fields.map Field.name).Nodup)
include hletters hnames

/-- Locals are the same only for a list that is converted and for a field with the name of its
local. -/
theorem nodup_readLocal_iff : (fields.map readLocal).Nodup ↔
    ∀ f ∈ fields, ∀ g ∈ fields, isConvertedList f = true → g.name = f.name ++ "Wrapped" →
      isConvertedList g = true := by
  have hinj := List.inj_on_of_nodup_map hnames
  rw [List.nodup_map_iff_inj_on hnames.of_map]
  constructor
  · intro h f hf g hg hconverted hname
    by_contra hplain
    have hlocal := (readLocal_eq_iff_of_converted (hletters f hf) hconverted
      (Bool.eq_false_iff.2 hplain)).2 hname
    exact hplain (h g hg f hf hlocal ▸ hconverted)
  · intro h f hf g hg hlocal
    refine hinj hf hg ?_
    -- Both endings and both escapes cancel; an ending and a plain name are what `h` is about.
    cases hconverted : isConvertedList f with
    | true =>
      cases hconverted' : isConvertedList g with
      | true =>
        rw [readLocal, readLocal, if_pos hconverted, if_pos hconverted'] at hlocal
        exact (String.append_left_inj _).1 hlocal
      | false =>
        have hname := (readLocal_eq_iff_of_converted (hletters f hf) hconverted hconverted').1
          hlocal.symm
        rw [h f hf g hg hconverted hname] at hconverted'
        cases hconverted'
    | false =>
      cases hconverted' : isConvertedList g with
      | true =>
        have hname := (readLocal_eq_iff_of_converted (hletters g hg) hconverted' hconverted).1
          hlocal
        rw [h g hg f hf hconverted' hname] at hconverted
        cases hconverted
      | false =>
        rw [readLocal, readLocal, if_neg (Bool.eq_false_iff.1 hconverted),
          if_neg (Bool.eq_false_iff.1 hconverted')] at hlocal
        exact escaped_inj (hletters f hf) (hletters g hg) hlocal

theorem distinct_readLocals_iff : (readLocals fields).Distinct ↔
    (∀ f ∈ fields, f.name = "proto" → isConvertedList f = true) ∧
    ∀ f ∈ fields, ∀ g ∈ fields, isConvertedList f = true → g.name = f.name ++ "Wrapped" →
      isConvertedList g = true := by
  have hdeclared : (readLocals fields).declared = fields.map readLocal := by
    rw [Locals.declared, readLocals, List.filterMap_map, ← List.filterMap_eq_map]
    rfl
  have hkept : (∀ b ∈ (readLocals fields).bindings, b.name ≠ "proto") ↔
      ∀ f ∈ fields, f.name = "proto" → isConvertedList f = true := by
    rw [readLocals, List.forall_mem_map]
    refine forall₂_congr fun f _ => ?_
    rw [Binding.name, Ne, readLocal_eq_proto_iff, not_and, Bool.not_eq_false]
  rw [← nodup_readLocal_iff hletters hnames, ← hkept, ← hdeclared]
  exact ⟨fun h => ⟨h.kept, h.apart⟩, fun h => ⟨h.1, h.2⟩⟩

end

theorem declared_buildLocals (fields : List Field) :
    (buildLocals fields).declared =
      (fields.filter Field.isList).map fun f => f.name ++ "Unwrapped" := by
  rw [Locals.declared, buildLocals]
  induction fields with
  | nil => rfl
  | cons f rest ih =>
    rw [List.flatMap_cons, List.filterMap_append, ih, buildBindings, List.filter_cons]
    split
    · rfl
    · split <;> rfl

/-- The lists that are built have locals of their own. -/
theorem nodup_buildLocals {fields : List Field} (hnames : (fields.map Field.name).Nodup) :
    (buildLocals fields).declared.Nodup := by
  have hlists : ((fields.filter Field.isList).map Field.name).Nodup :=
    hnames.sublist (List.filter_sublist.map _)
  have hmap : ((fields.filter Field.isList).map fun f => f.name ++ "Unwrapped") =
      ((fields.filter Field.isList).map Field.name).map (· ++ "Unwrapped") := by
    rw [List.map_map]
    rfl
  rw [declared_buildLocals, hmap]
  exact hlists.map fun _ _ => (String.append_left_inj _).1

theorem distinct_buildLocals_iff {fields : List Field} (hnames : (fields.map Field.name).Nodup) :
    (buildLocals fields).Distinct ↔ ∀ f ∈ fields, f.name = "builder" → f.isOptional = false := by
  have hfield (f : Field) : (∀ b ∈ buildBindings f, b.name ≠ "builder") ↔
      (f.name = "builder" → f.isOptional = false) := by
    rw [buildBindings]
    split
    · next hlist =>
      have hlocal : f.name ++ "Unwrapped" ≠ "builder" := append_ne (by decide) f.name
      simp [Binding.name, hlocal, Field.isOptional_of_isList hlist]
    · split
      · next hoptional =>
        have hescaped : escaped f.name = "builder" ↔ f.name = "builder" :=
          escaped_eq_iff (by decide) (by decide)
        simp [Binding.name, hescaped, hoptional]
      · next hnot => simp [hnot]
  have hkept : (∀ b ∈ (buildLocals fields).bindings, b.name ≠ "builder") ↔
      ∀ f ∈ fields, f.name = "builder" → f.isOptional = false := by
    rw [buildLocals, List.forall_mem_flatMap]
    exact forall₂_congr fun f _ => hfield f
  rw [← hkept]
  exact ⟨fun h => h.kept, fun h => ⟨h, nodup_buildLocals hnames⟩⟩

/-- The class of a message holds its conversions, whatever is nested in it. -/
theorem converters_part (s : Schema) (id : Nat) (d : Declaration) (nested : Script) :
    parsers s id d ++ builder s d <:+: messageScript s id d nested :=
  ⟨[.line (markLine d), .blank, .line ("@objc public class " ++ d.names.wrapper ++ ": NSObject" ++
      " \x7b"), .indent, .blank] ++ errorEnum d ++ nested ++ properties s d.fields ++
      initializer s d.fields ++ serializer, [.strip, .dedent, .line "\x7d", .blank], by
    simp [messageScript, Script.braced]⟩

/-- **Names where a message is converted.** For each message of a text that can be linked, the
function that reads it introduces the locals of its fields beside `proto`, and the closure that
builds it the locals of its lists and the values of its optional fields beside `builder`. In the
function, no name stands for two things exactly if no field but a converted list is called `proto`,
or like a converted list with `Wrapped` behind it. In the closure, none does exactly if no optional
field is called `builder`. -/
theorem locals_distinct_iff {p : Prefixes} {text : String} {s : Schema}
    (h : Schema.linkedOfText p text = .ok s) {id : Nat} {d : Declaration}
    (hd : s.get? id = some d) :
    (∀ nested, parsers s id d ++ builder s d <:+: messageScript s id d nested) ∧
    (parsers s id d).blocks.flatMap parserLocals = [readLocals d.fields] ∧
    (builder s d).blocks.flatMap builderLocals =
      (if d.fields.isEmpty then [] else [buildLocals d.fields]) ∧
    ((readLocals d.fields).Distinct ↔
      (∀ f ∈ d.fields, f.name = "proto" → isConvertedList f = true) ∧
      ∀ f ∈ d.fields, ∀ g ∈ d.fields, isConvertedList f = true → g.name = f.name ++ "Wrapped" →
        isConvertedList g = true) ∧
    ((buildLocals d.fields).Distinct ↔
      ∀ f ∈ d.fields, f.name = "builder" → f.isOptional = false) ∧
    (buildLocals d.fields).declared.Nodup := by
  have hnames := Schema.nodup_fieldNames h hd
  have hletters := Schema.letters_fieldNames h hd
  exact ⟨converters_part s id d, (locals_parsers id hletters).found,
    (locals_builder hletters).found, distinct_readLocals_iff hletters hnames,
    distinct_buildLocals_iff hnames, nodup_buildLocals hnames⟩

end Swift

/-- A message with another one in it, and with fields. -/
def cartText (fields : List String) : String :=
  "message Cart \x7b\nmessage Line \x7b\n\x7d\n" ++ String.join (fields.map (· ++ "\n")) ++ "\x7d\n"

theorem exists_of_map_fields {p : Prefixes} {text : String} {fields : List Field} {id : Nat}
    (h : ((Schema.linkedOfText p text).toOption.bind (·.get? id)).map (·.fields) = some fields) :
    ∃ s d, Schema.linkedOfText p text = .ok s ∧ s.get? id = some d ∧ d.fields = fields := by
  obtain ⟨d, hd, hfields⟩ := Option.map_eq_some_iff.1 h
  obtain ⟨s, hs, hget⟩ := Option.bind_eq_some_iff.1 hd
  cases hlinked : Schema.linkedOfText p text with
  | error problem => simp [hlinked, Except.toOption] at hs
  | ok t =>
    rw [hlinked] at hs
    cases hs
    exact ⟨_, d, rfl, hget, hfields⟩

namespace Swift
open Code

/-- The list has a local of its own, which leaves its name to the loop. -/
theorem locals_distinct_iff_item : ∃ s d,
    Schema.linkedOfText ⟨"", ""⟩
      (cartText ["repeated Line item = 1;", "optional string note = 2;"]) = .ok s ∧
    s.get? 0 = some d ∧
    (parsers s 0 d).blocks.flatMap parserLocals =
      [⟨"proto", [.declares "itemWrapped", .declares "note"]⟩] ∧
    (builder s d).blocks.flatMap builderLocals =
      [⟨"builder", [.declares "itemUnwrapped", .unwraps "note"]⟩] ∧
    (readLocals d.fields).Distinct ∧ (buildLocals d.fields).Distinct := by
  have hcart : ((Schema.linkedOfText ⟨"", ""⟩
      (cartText ["repeated Line item = 1;", "optional string note = 2;"])).toOption.bind
        (·.get? 0)).map (·.fields) =
      some [⟨"item", 1, some .repeated, "Line", none, .message 1⟩,
        ⟨"note", 2, some .optional, "string", none, .scalar .string⟩] := by
    decide +kernel
  obtain ⟨s, d, h, hd, hfields⟩ := exists_of_map_fields hcart
  obtain ⟨-, hread, hbuild, hreadDistinct, hbuildDistinct, -⟩ := locals_distinct_iff h hd
  rw [hfields] at hread hbuild hreadDistinct hbuildDistinct
  refine ⟨s, d, h, hd, hread, hbuild, ?_, ?_⟩
  · rw [hfields, hreadDistinct]
    decide +kernel
  · rw [hfields, hbuildDistinct]
    decide +kernel

/-- **Names that stand for two things.** A field is called like the parameter, like the local of a
list, or like the builder. -/
theorem locals_distinct_fails : ∃ s d,
    Schema.linkedOfText ⟨"", ""⟩
      (cartText ["repeated Line item = 1;", "optional uint32 itemWrapped = 2;",
        "optional string builder = 3;", "required string proto = 4;"]) = .ok s ∧
    s.get? 0 = some d ∧
    (parsers s 0 d).blocks.flatMap parserLocals =
      [⟨"proto", [.declares "itemWrapped", .declares "itemWrapped", .declares "builder",
        .declares "proto"]⟩] ∧
    (builder s d).blocks.flatMap builderLocals =
      [⟨"builder", [.declares "itemUnwrapped", .unwraps "builder"]⟩] ∧
    ¬(readLocals d.fields).Distinct ∧ ¬(buildLocals d.fields).Distinct := by
  have hcart : ((Schema.linkedOfText ⟨"", ""⟩
      (cartText ["repeated Line item = 1;", "optional uint32 itemWrapped = 2;",
        "optional string builder = 3;", "required string proto = 4;"])).toOption.bind
        (·.get? 0)).map (·.fields) =
      some [⟨"item", 1, some .repeated, "Line", none, .message 1⟩,
        ⟨"itemWrapped", 2, some .optional, "uint32", none, .scalar .uint32⟩,
        ⟨"builder", 3, some .optional, "string", none, .scalar .string⟩,
        ⟨"proto", 4, some .required, "string", none, .scalar .string⟩] := by
    decide +kernel
  obtain ⟨s, d, h, hd, hfields⟩ := exists_of_map_fields hcart
  have hletters := Schema.letters_fieldNames h hd
  have hread := (locals_parsers (s := s) 0 hletters).found
  have hbuild := (locals_builder (s := s) hletters).found
  rw [hfields] at hread hbuild
  refine ⟨s, d, h, hd, hread, hbuild, ?_, ?_⟩
  · rw [hfields]
    decide +kernel
  · rw [hfields]
    decide +kernel

end Swift
end SwiftWrap
