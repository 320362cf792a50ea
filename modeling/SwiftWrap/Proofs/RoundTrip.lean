import SwiftWrap.Proofs.Forest
import SwiftWrap.Proofs.Grammar
import SwiftWrap.Proofs.Sheet
import Mathlib.Tactic.MkIffOfInductiveProp

/-! Reading back what was written.

A schema is printable if its names fit on a line and its indices fit their types
(`Schema.Printable`). The text of a document shows the lines of its declarations, nested
blocks first (`Document.shown_script`). Each line has the form of what it declares, so the
lines derive the document again (`Document.derives_texts`). The numbers need no argument of
their own: a forest is the schema of a document.

What is read is tidy (`Schema.Tidy`): all that it lacks for being printed is that a name may
be empty or hold a slash. So the lemmas about lines ask for tidy declarations, and for names
that are not empty only where a line is to be read back.

So a printable forest is read back from its text as it was (`Schema.ofText_text`). -/
namespace SwiftWrap
open Text Spelling Grammar

/-! ### What can be printed -/

/-- A name that a line carries unchanged. -/
@[mk_iff]
structure IsName (name : String) : Prop where
  nonempty : name ≠ ""
  trimmed : trim name.toList = name.toList
  plain : Sheet.Plain name

/-- A field of words, as it is declared, with an index of 32 bits. -/
@[mk_iff]
structure Field.Printable (f : Field) : Prop where
  name : Run isWord f.name.toList
  typeName : Run isWord f.typeName.toList
  index : f.index < 0x100000000
  type : f.AsDeclared

/-- An item of one word, with an index of 31 bits. -/
@[mk_iff]
structure Item.Printable (i : Item) : Prop where
  name : Run isWord i.name.toList
  index : 0 ≤ i.index ∧ i.index < 0x80000000

/-- A declaration without names for generated code, in which no two fields or items clash. -/
@[mk_iff]
structure Declaration.Printable (d : Declaration) : Prop where
  name : IsName d.name
  names : d.names = .none
  fields : ∀ f ∈ d.fields, f.Printable
  fieldsApart : Apart Field.name Field.index d.fields
  items : ∀ i ∈ d.items, i.Printable
  itemsApart : Apart Item.name Item.index d.items

/-- A schema of printable declarations, with messages only at file scope. -/
structure Schema.Printable (s : Schema) : Prop where
  package : ∀ name ∈ s.package, IsName name
  declarations : ∀ d ∈ s.declarations, d.Printable
  roots : ∀ id ∈ s.roots, ∀ d, s.get? id = some d → d.kind = .message

/-- A name as a line gives it. It may be empty. -/
structure IsLabel (name : String) : Prop where
  trimmed : trim name.toList = name.toList
  oneLine : '\n' ∉ name.toList

/-- A declaration as it is read. -/
structure Declaration.Tidy (d : Declaration) : Prop where
  name : IsLabel d.name
  names : d.names = .none
  fields : ∀ f ∈ d.fields, f.Printable
  fieldsApart : Apart Field.name Field.index d.fields
  items : ∀ i ∈ d.items, i.Printable
  itemsApart : Apart Item.name Item.index d.items

/-- A schema as it is read. -/
structure Schema.Tidy (s : Schema) : Prop where
  package : ∀ name ∈ s.package, IsLabel name
  declarations : ∀ d ∈ s.declarations, d.Tidy
  roots : ∀ id ∈ s.roots, ∀ d, s.get? id = some d → d.kind = .message

/-- No name of a schema is empty. -/
structure Schema.Named (s : Schema) : Prop where
  package : s.package ≠ some ""
  declarations : ∀ d ∈ s.declarations, d.name ≠ ""

theorem IsName.isLabel {name : String} (h : IsName name) : IsLabel name := ⟨h.trimmed, h.plain.1⟩

/-- What can be printed can be written line by line. -/
theorem Schema.Printable.tidy {s : Schema} (h : s.Printable) : s.Tidy where
  package name hname := (h.package name hname).isLabel
  declarations d hd :=
    have hprint := h.declarations d hd
    { hprint with name := hprint.name.isLabel }
  roots := h.roots

theorem Schema.Printable.named {s : Schema} (h : s.Printable) : s.Named where
  package hempty := (h.package "" hempty).nonempty rfl
  declarations d hd := (h.declarations d hd).name.nonempty

instance [DecidableEq β] (name : α → String) (index : α → β) (l : List α) :
    Decidable (Apart name index l) :=
  inferInstanceAs (Decidable (l.Pairwise _))

instance (name : String) : Decidable (IsName name) := decidable_of_iff' _ (isName_iff name)

instance (f : Field) : Decidable f.AsDeclared := inferInstanceAs (Decidable (_ = _))

instance (f : Field) : Decidable f.Printable := decidable_of_iff' _ f.printable_iff

instance (i : Item) : Decidable i.Printable := decidable_of_iff' _ i.printable_iff

instance (d : Declaration) : Decidable d.Printable := decidable_of_iff' _ d.printable_iff

/-! ### Lines -/

theorem run_repr (n : Nat) : Run Char.isDigit n.repr.toList := by
  rw [Nat.toList_repr]
  exact ⟨Nat.toDigits_ne_nil, fun _ => Nat.isDigit_of_mem_toDigits (by decide) (by decide)⟩

/-- A number below the bound is read back from its digits. -/
theorem isNumber_repr {bound n : Nat} (h : n < bound) : IsNumber bound n.repr.toList n := by
  refine ⟨run_repr n, ?_, h⟩
  rw [Nat.toList_repr, Nat.ofDigitChars_ten_toDigits]

theorem run_space : Run isBlank [' '] := by decide

theorem isEquals_spaced : IsEquals " = ".toList := ⟨[' '], [' '], rfl, run_space.2, run_space.2⟩

/-- A field's line in three parts: what stands in front of its type, the declaration itself,
and what stands in front of the semicolon. -/
theorem Field.isField_parts {f : Field} (hf : f.Printable) {lead ending : String}
    (hlead : IsLead lead.toList f.cardinality)
    (hending : ∃ gap default, ending.toList = gap ++ default ∧ (∀ c ∈ gap, isBlank c = true) ∧
      IsDefault default f.default) :
    IsField (lead ++ s!"{f.typeName} {f.name} = {f.index}" ++ ending ++ ";") f := by
  obtain ⟨gap, default, hgap, hblank, hdefault⟩ := hending
  have hdeclare : f = .declare f.cardinality (.ofList f.typeName.toList) (.ofList f.name.toList)
      f.index f.default := by
    rw [String.ofList_toList, String.ofList_toList, declare, ← (hf.type : f.type = _)]
  have hline : (lead ++ s!"{f.typeName} {f.name} = {f.index}" ++ ending ++ ";").toList =
      lead.toList ++ (f.typeName.toList ++ ([' '] ++ (f.name.toList ++ (" = ".toList ++
        (f.index.repr.toList ++ (gap ++ (default ++ [';']))))))) := by
    simp only [String.toList_append, List.append_assoc, hgap]
    rfl
  have hfield := IsField.intro hline hlead hf.typeName run_space hf.name isEquals_spaced
    (.intro (isNumber_repr hf.index) hblank hdefault)
  rwa [← hdeclare] at hfield

/-- **The line of a field is read as the field.** -/
theorem Field.isField_line {f : Field} (hf : f.Printable) : IsField f.line f := by
  unfold line
  apply isField_parts hf
  · cases f.cardinality with
    | none => exact .absent
    | some c =>
      rw [String.toList_append]
      exact .word c run_space
  · match f.default with
    | none => exact ⟨[], [], rfl, by simp, .absent⟩
    | some true => exact ⟨[' '], _, rfl, run_space.2, .yes⟩
    | some false => exact ⟨[' '], _, rfl, run_space.2, .no⟩

/-- So is the line of an item. -/
theorem Item.isItem_line {i : Item} (hi : i.Printable) : IsItem i.line i := by
  obtain ⟨name, index⟩ := i
  obtain ⟨hname, hindex⟩ := hi
  simp only at hname hindex
  obtain ⟨n, rfl⟩ := Int.eq_ofNat_of_zero_le hindex.1
  have hnumber : IsNumber 0x80000000 n.repr.toList n := isNumber_repr (by omega)
  have hline : (Item.line ⟨name, n⟩).toList =
      name.toList ++ (" = ".toList ++ (n.repr.toList ++ ([] ++ [';']))) := by
    simp only [line, String.toList_append, List.append_assoc]
    rfl
  have hitem := IsItem.intro hline hname isEquals_spaced hnumber (by simp)
  rwa [String.ofList_toList] at hitem

/-- The line that opens a block. -/
def blockLine (kind : Kind) (name : String) : String := s!"{kind.keyword} {name}" ++ " \x7b"

theorem toList_blockLine (kind : Kind) (name : String) : (blockLine kind name).toList =
    kind.keyword.toList ++ ([' '] ++ name.toList ++ [' '] ++ ['\x7b']) := by
  simp only [blockLine, String.toList_append, List.append_assoc]
  rfl

theorem IsLabel.run {name : String} (h : IsLabel name) (hname : name ≠ "") :
    Run (· ≠ '\n') name.toList := by
  refine ⟨fun hnil => hname (String.toList_eq_nil_iff.1 hnil), fun c hc => ?_⟩
  rw [decide_eq_true_eq]
  intro heq
  subst heq
  exact h.oneLine hc

/-- And a line that opens a block is read with the block's name. -/
theorem IsLabel.isBlock_line {name : String} (h : IsLabel name) (hname : name ≠ "")
    (kind : Kind) : IsBlock kind (blockLine kind name) name := by
  refine ⟨[' '] ++ name.toList ++ [' '], toList_blockLine kind name, [' '], name.toList, [' '],
    rfl, run_space, h.run hname, run_space, ?_⟩
  rw [h.trimmed, String.ofList_toList]

theorem toList_packageLine (name : String) : (s!"package {name};").toList =
    "package".toList ++ (' ' :: (name.toList ++ [';'])) := by
  simp only [String.toList_append, List.append_assoc]
  rfl

/-- The line of a package is read with its name, dots and all. -/
theorem IsLabel.isPackage_line {name : String} (h : IsLabel name) (hname : name ≠ "") :
    IsPackage s!"package {name};" name := by
  have hrun := h.run hname
  have hstops : Stops isBlank (name.toList ++ [';']) := by
    have hstart := stops_trim name.toList
    rw [h.trimmed] at hstart
    cases hcs : name.toList with
    | nil => exact absurd hcs hrun.1
    | cons c cs =>
      rw [hcs] at hstart
      exact stops_cons.2 (stops_cons.1 hstart)
  have hblank : ∀ c ∈ [' '], isBlank c = true := run_space.2
  have hgap : (' ' :: (name.toList ++ [';'])).takeWhile isBlank = [' '] :=
    takeWhile_run hblank hstops
  have hrest : (' ' :: (name.toList ++ [';'])).dropWhile isBlank = name.toList ++ [';'] :=
    dropWhile_run hblank hstops
  have hbefore : beforeLast ';' (((' ' :: (name.toList ++ [';'])).dropWhile isBlank).takeWhile
      (· ≠ '\n')) = some name.toList := by
    rw [hrest, List.takeWhile_eq_self_iff.2, beforeLast_concat]
    exact List.forall_mem_append.2 ⟨hrun.2, by simp⟩
  have hpackage := isPackage_named (toList_packageLine name) (by rw [hgap]; simp) hbefore hrun.1
  rwa [h.trimmed, String.ofList_toList] at hpackage

/-! ### What a line shows -/

/-- Neither trimming nor cutting at a comment changes a line that ends in its semicolon or
brace. -/
theorem shownLine_eq_self {line : String} {c : Char} (hstart : Stops isBlank line.toList)
    (hend : line.toList.getLast? = some c) (hc : isBlank c = false) : shownLine line = [line] := by
  obtain ⟨cs, hcs⟩ := List.getLast?_eq_some_iff.1 hend
  have htrim : trim line.toList = line.toList := by
    rw [hcs] at hstart ⊢
    exact trim_eq_self hstart hc
  rw [shownLine, htrim]
  split
  · simp_all
  · rw [String.ofList_toList]

theorem Field.shownLine_line {f : Field} (hf : f.Printable) : shownLine f.line = [f.line] :=
  shownLine_eq_self (isField_line hf).stops (isField_line hf).ends semicolon_stops.1

theorem Item.shownLine_line {i : Item} (hi : i.Printable) : shownLine i.line = [i.line] :=
  shownLine_eq_self (isItem_line hi).stops (isItem_line hi).ends semicolon_stops.1

theorem shownLine_blockLine (kind : Kind) (name : String) :
    shownLine (blockLine kind name) = [blockLine kind name] := by
  have hline := toList_blockLine kind name
  have hbrace : isBlank '\x7b' = false := by decide
  refine shownLine_eq_self ?_ ?_ hbrace
  · rw [hline]
    cases kind <;> exact stops_cons.2 (by decide)
  · rw [hline, ← List.append_assoc, List.getLast?_concat]

theorem shownLine_packageLine (name : String) :
    shownLine s!"package {name};" = [s!"package {name};"] := by
  have hline := toList_packageLine name
  refine shownLine_eq_self ?_ ?_ semicolon_stops.1
  · rw [hline]
    exact stops_cons.2 (by decide)
  · rw [hline, ← List.cons_append, ← List.append_assoc, List.getLast?_concat]

/-! ### The characters of a line -/

/-- The characters of the lines that declare fields and items. -/
def isEntryChar (c : Char) : Bool := isWord c || c.isDigit || " =[];".toList.contains c

theorem all_isEntryChar_of_run {word : String} (h : Run isWord word.toList) :
    word.toList.all isEntryChar = true := by
  refine List.all_eq_true.2 fun c hc => ?_
  simp [isEntryChar, h.2 c hc]

theorem all_isEntryChar_repr (n : Nat) : n.repr.toList.all isEntryChar = true := by
  refine List.all_eq_true.2 fun c hc => ?_
  simp [isEntryChar, (run_repr n).2 c hc]

/-- The line of a field holds no slash, so no comment can begin in it. -/
theorem Field.all_line {f : Field} (hf : f.Printable) : f.line.toList.all isEntryChar = true := by
  have hkeyword (cardinality : Cardinality) :
      (cardinality.keyword ++ " ").toList.all isEntryChar = true := by
    cases cardinality <;> decide
  have hdefault : " [default = true]".toList.all isEntryChar = true ∧
      " [default = false]".toList.all isEntryChar = true := by
    decide
  have hspace : " ".toList.all isEntryChar = true := by decide
  have hequals : " = ".toList.all isEntryChar = true := by decide
  have hsemicolon : ";".toList.all isEntryChar = true := by decide
  simp only [line, String.toList_append, List.all_append, Bool.and_eq_true]
  refine ⟨⟨⟨?lead, ⟨⟨⟨all_isEntryChar_of_run hf.typeName, hspace⟩, all_isEntryChar_of_run hf.name⟩,
    hequals⟩, all_isEntryChar_repr f.index⟩, ?ending⟩, hsemicolon⟩
  case lead =>
    split
    · exact hkeyword _
    · rfl
  case ending =>
    split
    · exact hdefault.1
    · exact hdefault.2
    · rfl

theorem Item.all_line {i : Item} (hi : i.Printable) : i.line.toList.all isEntryChar = true := by
  obtain ⟨name, index⟩ := i
  obtain ⟨hname, hindex⟩ := hi
  obtain ⟨n, rfl⟩ := Int.eq_ofNat_of_zero_le hindex.1
  have hequals : " = ".toList.all isEntryChar = true := by decide
  have hsemicolon : ";".toList.all isEntryChar = true := by decide
  simp only [line, String.toList_append, List.all_append, Bool.and_eq_true]
  exact ⟨⟨⟨all_isEntryChar_of_run hname, hequals⟩, all_isEntryChar_repr n⟩, hsemicolon⟩

/-- What is no character of such a line is not in it. -/
theorem not_mem_of_all {p : Char → Bool} {cs : List Char} {c : Char} (h : cs.all p = true)
    (hc : p c = false) : c ∉ cs := by
  intro hmem
  simp [List.all_eq_true.1 h c hmem] at hc

theorem plain_of_all {line : String} (h : line.toList.all isEntryChar = true) :
    Sheet.Plain line :=
  ⟨not_mem_of_all h (by decide), not_mem_of_all h (by decide)⟩

theorem IsName.plain_line {name : String} (h : IsName name) (kind : Kind) :
    Sheet.Plain (blockLine kind name) := by
  have hkeyword : Sheet.Plain kind.keyword := by cases kind <;> decide
  have hspace := hkeyword.append (by decide : Sheet.Plain " ")
  exact (hspace.append h.plain).append (by decide)

/-! ### Blocks -/

/-- Bodies one behind the other are a body. -/
theorem isBody_append {first second : List String} {fields fields' : List Field}
    {nested nested' : Forest} (h : IsBody first fields nested)
    (h' : IsBody second fields' nested') :
    IsBody (first ++ second) (fields ++ fields') (nested ++ nested') := by
  induction h with
  | nil => exact h'
  | field hfield _ ih => exact .field hfield ih
  | enumeration hopen hitems hapart _ ih =>
    have := IsBody.enumeration hopen hitems hapart ih
    simpa using this
  | message hopen hinner hapart _ _ ih =>
    have := IsBody.message hopen hinner hapart ih
    simpa using this

/-- The lines of fields are a body without nested blocks. -/
theorem isBody_fields {fields : List Field} (h : ∀ f ∈ fields, f.Printable) :
    IsBody (fields.map Field.line) fields .nil := by
  induction fields with
  | nil => exact .nil
  | cons f rest ih =>
    exact .field (Field.isField_line (h f List.mem_cons_self))
      (ih fun g hg => h g (List.mem_cons_of_mem f hg))

theorem forall₂_items {items : List Item} (h : ∀ i ∈ items, i.Printable) :
    List.Forall₂ IsItem (items.map Item.line) items := by
  rw [List.forall₂_map_left_iff, List.forall₂_same]
  exact fun i hi => Item.isItem_line (h i hi)

/-- A declaration shows its opening line, what is nested, its fields or items, and its closing
line. -/
theorem Declaration.shown_script {d : Declaration} (hd : d.Tidy) (nested : Script) :
    (d.script nested).flatMap Sheet.Step.shown = blockLine d.kind d.name ::
      (nested.flatMap Sheet.Step.shown ++ d.fields.map Field.line ++ d.items.map Item.line) ++
      ["\x7d"] := by
  have hfields : (d.fields.map fun f => Sheet.Step.line f.line).flatMap Sheet.Step.shown =
      d.fields.map Field.line := by
    rw [List.flatMap_map, List.map_eq_flatMap]
    exact List.flatMap_congr fun f hf => Field.shownLine_line (hd.fields f hf)
  have hitems : (d.items.map fun i => Sheet.Step.line i.line).flatMap Sheet.Step.shown =
      d.items.map Item.line := by
    rw [List.flatMap_map, List.map_eq_flatMap]
    exact List.flatMap_congr fun i hi => Item.shownLine_line (hd.items i hi)
  have hopen := shownLine_blockLine d.kind d.name
  rw [blockLine] at hopen ⊢
  simp only [script, Script.braced, List.flatMap_append, List.flatMap_cons, List.flatMap_nil,
    Sheet.Step.shown, hopen, hfields, hitems]
  rfl

/-! ### Trees -/

namespace Schema

/-- On a forest, no child is passed over in printing. -/
theorem declarationScript_eq {s : Schema} (hs : s.IsForest) {id : Nat} {d : Declaration}
    (hd : s.get? id = some d) :
    s.declarationScript id = d.script (d.children.flatMap s.declarationScript) :=
  hs.ascending.collect_eq hd

/-- The lines that the script of a schema adds. -/
inductive Prints (s : Schema) : String → Prop where
  | version : Prints s "syntax = \"proto2\";"
  | package {name : String} (h : s.package = some name) : Prints s s!"package {name};"
  | blank : Prints s ""
  | opening {d : Declaration} (hd : d ∈ s.declarations) : Prints s (blockLine d.kind d.name)
  | field {d : Declaration} {f : Field} (hd : d ∈ s.declarations) (hf : f ∈ d.fields) :
      Prints s f.line
  | item {d : Declaration} {i : Item} (hd : d ∈ s.declarations) (hi : i ∈ d.items) :
      Prints s i.line
  | closing : Prints s "\x7d"

theorem prints_declarationScript {s : Schema} (hs : s.IsForest) (id : Nat) :
    ∀ step ∈ s.declarationScript id, ∀ line ∈ step.added, s.Prints line := by
  induction id using s.downward_induction with
  | step id ih =>
    cases hd : s.get? id with
    | none =>
      rw [declarationScript, collect_of_none hd]
      simp
    | some d =>
      have hmem := List.mem_of_getElem? hd
      intro step hstep line hline
      rw [declarationScript_eq hs hd] at hstep
      simp only [Declaration.script, Script.braced, List.mem_append, List.mem_cons,
        List.not_mem_nil, or_false, List.mem_map] at hstep
      rcases hstep with ((rfl | rfl) | (h | ⟨f, hf, rfl⟩) | ⟨i, hi, rfl⟩) | rfl | rfl
      · exact List.mem_singleton.1 hline ▸ .opening hmem
      · cases hline
      · obtain ⟨c, hc, hstep⟩ := List.mem_flatMap.1 h
        have hlt := (hs.isParent_lt ((hs.mem_children_iff hd).1 hc)).1
        exact ih (lt_of_get? hd) c hlt step hstep line hline
      · exact List.mem_singleton.1 hline ▸ .field hmem hf
      · exact List.mem_singleton.1 hline ▸ .item hmem hi
      · cases hline
      · exact List.mem_singleton.1 hline ▸ .closing

theorem prints_script {s : Schema} (hs : s.IsForest) :
    ∀ step ∈ s.script, ∀ line ∈ step.added, s.Prints line := by
  intro step hstep line hline
  rcases List.mem_append.1 hstep with hstep | hstep
  · rcases List.mem_cons.1 hstep with rfl | hstep
    · exact List.mem_singleton.1 hline ▸ .version
    · cases hpackage : s.package with
      | none => simp [hpackage] at hstep
      | some name =>
        simp only [hpackage, List.mem_singleton] at hstep
        subst hstep
        exact List.mem_singleton.1 hline ▸ .package hpackage
  · obtain ⟨root, -, hstep⟩ := List.mem_flatMap.1 hstep
    rcases List.mem_cons.1 hstep with rfl | hstep
    · exact List.mem_singleton.1 hline ▸ .blank
    · exact prints_declarationScript hs root step hstep line hline

end Schema

namespace Forest

/-- The lines of sibling declarations. -/
def texts : Forest → List String
  | nil => []
  | message name fields nested rest =>
    blockLine .message name :: (nested.texts ++ fields.map Field.line) ++ "\x7d" :: rest.texts
  | enumeration name items rest =>
    blockLine .enumeration name :: items.map Item.line ++ "\x7d" :: rest.texts

/-- The scripts of sibling declarations show their lines. -/
theorem shown_script {s : Schema} (hs : s.IsForest) (ht : ∀ d ∈ s.declarations, d.Tidy)
    {f : Forest} {parent : Option Nat} {n : Nat} (h : f.PlacedIn s parent n) :
    ((f.numbers n).flatMap s.declarationScript).flatMap Sheet.Step.shown = f.texts := by
  induction f generalizing parent n with
  | nil => rfl
  | message name fields nested rest ihnested ihrest =>
    obtain ⟨hd, hnested, hrest⟩ := placedIn_message_iff.1 h
    rw [numbers, List.flatMap_cons, List.flatMap_append, Schema.declarationScript_eq hs hd,
      Declaration.shown_script (ht _ (List.mem_of_getElem? hd)), ihrest hrest]
    have hinner := ihnested hnested
    simp only [Declaration.children, Body.children, Declaration.fields, Body.fields,
      Declaration.items, Body.items, List.map_nil, List.append_nil, hinner, texts]
    simp [Declaration.kind, Body.kind]
  | enumeration name items rest ih =>
    obtain ⟨hd, hrest⟩ := placedIn_enumeration_iff.1 h
    rw [numbers, List.flatMap_cons, List.flatMap_append, Schema.declarationScript_eq hs hd,
      Declaration.shown_script (ht _ (List.mem_of_getElem? hd)), ih hrest]
    simp [Declaration.children, Body.children, Declaration.fields, Body.fields,
      Declaration.items, Body.items, texts, Declaration.kind, Body.kind]

/-- The lines of sibling declarations derive the forest that they are. -/
theorem isBody_texts {f : Forest} {parent : Option Nat} {n : Nat}
    (h : ∀ d ∈ f.declarations parent n, d.Tidy ∧ d.name ≠ "") : IsBody f.texts [] f := by
  induction f generalizing parent n with
  | nil => exact .nil
  | message name fields nested rest ihnested ihrest =>
    obtain ⟨⟨htidy, hname⟩, htail⟩ := List.forall_mem_cons.1 h
    obtain ⟨hnested, hrest⟩ := List.forall_mem_append.1 htail
    have hinner := isBody_append (ihnested hnested) (isBody_fields htidy.fields)
    rw [append_nil] at hinner
    exact .message (htidy.name.isBlock_line hname .message) hinner htidy.fieldsApart (ihrest hrest)
  | enumeration name items rest ih =>
    obtain ⟨⟨htidy, hname⟩, hrest⟩ := List.forall_mem_cons.1 h
    exact .enumeration (htidy.name.isBlock_line hname .enumeration) (forall₂_items htidy.items)
      htidy.itemsApart (ih hrest)

/-- The same at file scope, where only messages stand. -/
theorem isFile_texts {s : Schema} {f : Forest} {parent : Option Nat} {n : Nat}
    (hplaced : f.PlacedIn s parent n)
    (hroots : ∀ id ∈ f.numbers n, ∀ d, s.get? id = some d → d.kind = .message)
    (h : ∀ d ∈ f.declarations parent n, d.Tidy ∧ d.name ≠ "") : IsFile f.texts [] f := by
  induction f generalizing n with
  | nil => exact .nil
  | message name fields nested rest _ ih =>
    obtain ⟨⟨htidy, hname⟩, htail⟩ := List.forall_mem_cons.1 h
    obtain ⟨hnested, hrest⟩ := List.forall_mem_append.1 htail
    obtain ⟨-, -, hplaced⟩ := placedIn_message_iff.1 hplaced
    have hinner := isBody_append (isBody_texts hnested) (isBody_fields htidy.fields)
    rw [append_nil] at hinner
    exact .message (htidy.name.isBlock_line hname .message) hinner htidy.fieldsApart
      (ih hplaced (fun id hid => hroots id (List.mem_cons_of_mem n hid)) hrest)
  | enumeration name items rest _ =>
    obtain ⟨hd, -⟩ := placedIn_enumeration_iff.1 hplaced
    cases hroots n List.mem_cons_self _ hd

end Forest

/-! ### The text -/

theorem Schema.plain_script {s : Schema} (hs : s.IsForest) (hp : s.Printable) :
    ∀ step ∈ s.script, step.Plain := by
  refine fun step hstep => Sheet.Step.plain_of_added fun line hline => ?_
  cases prints_script hs step hstep line hline with
  | version => decide
  | package hpackage =>
    have hkeyword : Sheet.Plain "package " := by decide
    exact (hkeyword.append (hp.package _ hpackage).plain).append (by decide)
  | blank => decide
  | opening hd => exact (hp.declarations _ hd).name.plain_line _
  | field hd hf => exact plain_of_all (Field.all_line ((hp.declarations _ hd).fields _ hf))
  | item hd hi => exact plain_of_all (Item.all_line ((hp.declarations _ hd).items _ hi))
  | closing => decide

namespace Document

/-- The lines of a document's text. -/
def texts (d : Document) : List String :=
  "syntax = \"proto2\";" :: (d.package.toList.map fun name => s!"package {name};") ++ d.roots.texts

/-- The script of a tidy document shows its lines. -/
theorem shown_script {d : Document} (ht : d.toSchema.Tidy) :
    d.toSchema.script.flatMap Sheet.Step.shown = d.texts := by
  have hsyntax : shownLine "syntax = \"proto2\";" = ["syntax = \"proto2\";"] := by decide +kernel
  have hhead : d.toSchema.headScript.flatMap Sheet.Step.shown =
      "syntax = \"proto2\";" :: (d.package.toList.map fun name => s!"package {name};") := by
    rw [Schema.headScript, List.flatMap_cons, Sheet.Step.shown, hsyntax, toSchema]
    cases d.package with
    | none => rfl
    | some name =>
      simp only [List.flatMap_singleton, Sheet.Step.shown, shownLine_packageLine]
      rfl
  have hroots : (d.toSchema.roots.flatMap fun root =>
      .blank :: d.toSchema.declarationScript root).flatMap Sheet.Step.shown = d.roots.texts := by
    rw [← Forest.shown_script d.isForest ht.declarations d.placedIn, List.flatMap_assoc,
      List.flatMap_assoc]
    rfl
  rw [Schema.script, List.flatMap_append, hhead, hroots]
  rfl

/-- The lines of a document derive it, if no name is empty. -/
theorem derives_texts {d : Document} (ht : d.toSchema.Tidy) (hn : d.toSchema.Named) :
    Derives d.texts d := by
  have hfile : IsFile d.roots.texts [] d.roots := Forest.isFile_texts d.placedIn ht.roots
    fun e he => ⟨ht.declarations e he, hn.declarations e he⟩
  refine ⟨d.package.toList, .ignored (.inl (by decide)) ?_, ?_, (Option.head?_toList).symm⟩
  · cases hpackage : d.package with
    | none => exact hfile
    | some name =>
      have hname : name ≠ "" := fun hempty => hn.package (by rw [← hempty]; exact hpackage)
      exact .package ((ht.package name hpackage).isPackage_line hname) hfile
  · cases d.package <;> simp

end Document

/-- What is shown of a printed document derives it again. -/
theorem Schema.derives_script {d : Document} (hp : d.toSchema.Printable) :
    Derives (d.toSchema.script.flatMap Sheet.Step.shown) d := by
  rw [Document.shown_script hp.tidy]
  exact Document.derives_texts hp.tidy hp.named

/-- **A printable forest is read back from its text as it was.** -/
theorem Schema.ofText_text {s : Schema} (hs : s.IsForest) (hp : s.Printable) :
    Schema.ofText s.text = .ok s := by
  obtain ⟨d, rfl⟩ := hs.exists_document fun d hd => (hp.declarations d hd).names
  have hlines : (Source.lines d.toSchema.text).map (·.text) =
      d.toSchema.script.flatMap Sheet.Step.shown := Script.lines_text (plain_script hs hp)
  have hread : Document.ofLines (Source.lines d.toSchema.text) = .ok d := by
    rw [Document.ofLines_eq_ok_iff, hlines]
    exact derives_script hp
  rw [ofText, ofLines_eq_toSchema, hread]
  rfl

/-- Two messages, the first with a message and two enums in it. Names hold what only a name at
the right place may hold. -/
def Document.nestedSample : Document where
  package := some "a.b; c"
  roots :=
    .message "Outer = \x7b"
      [.declare (some .repeated) "Inner" "required" 4294967295 none,
        .declare none "optional" "bool" 0 (some false)]
      (.message "Inner" [.declare (some .optional) "bool" "on" 1 (some true)]
        (.enumeration "Kind" [⟨"first", 0⟩, ⟨"last", 2147483647⟩] .nil)
        (.enumeration "Empty" [] .nil))
      (.message "package x;" [] .nil .nil)

theorem Schema.ofText_text_nested :
    Schema.ofText Document.nestedSample.toSchema.text = .ok Document.nestedSample.toSchema :=
  Schema.ofText_text Document.nestedSample.isForest {
    package := by decide +kernel
    declarations := by decide +kernel
    roots := by decide +kernel }

end SwiftWrap
