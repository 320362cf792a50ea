import SwiftWrap.Proofs.Preorder
import SwiftWrap.Proofs.RoundTrip

/-! When the fixed form of a text stays as it is.

A name is whatever stands between a keyword and a brace, so what is read need not be
readable again. A name of white space alone is empty, and no line gives an empty name.
Marks of comments may be left in names, and the package, which goes to the top of the text,
may open a comment that a name below it closes.

Nothing else can go wrong. What is read is tidy (`Document.tidy`), so its text is read back
if no name is empty and nothing in the text is a comment. And that is needed: a line with an
empty name has no reading (`readable_of_isFile`), and a comment takes stars with it, of which
a text has no more than the lines that it was read from (`Document.stars_texts_le`).
`Output.fixedForm_stable_iff` puts the two together. -/
namespace SwiftWrap
open Text Spelling Grammar

/-! ### What is read is tidy -/

/-- What is trimmed and has no line break is a label. -/
theorem isLabel_trim {body : List Char} (h : '\n' ∉ body) : IsLabel (.ofList (trim body)) where
  trimmed := by rw [String.toList_ofList, trim_trim]
  oneLine := by
    rw [String.toList_ofList]
    exact fun hc => h (mem_of_mem_trim hc)

theorem not_mem_of_run {body : List Char} (h : Run (· ≠ '\n') body) : '\n' ∉ body :=
  fun hc => by simpa using h.2 _ hc

/-- The name of a block is a part of the line that opens it. -/
theorem Spelling.IsBlock.cut {kind : Kind} {text name : String} (h : IsBlock kind text name) :
    IsLabel name ∧ name.toList <:+: text.toList := by
  obtain ⟨inner, htext, gap, body, gap', rfl, -, hbody, -, rfl⟩ := h
  refine ⟨isLabel_trim (not_mem_of_run hbody), ?_⟩
  rw [String.toList_ofList, htext]
  exact (trim_part body).trans ⟨kind.keyword.toList ++ gap, gap' ++ ['\x7b'], by simp⟩

theorem Spelling.IsPackage.cut {text name : String} (h : IsPackage text name) :
    IsLabel name ∧ name.toList <:+: text.toList := by
  obtain ⟨gap, body, hcut, rfl, -⟩ := h
  refine ⟨isLabel_trim (not_mem_of_run hcut.name), ?_⟩
  rw [String.toList_ofList]
  obtain ⟨rest, hrest⟩ := hcut.start
  exact (trim_part body).trans ⟨"package".toList ++ gap, ';' :: rest, by simp [← hrest]⟩

/-- A field that is read can be printed. -/
theorem Spelling.IsField.printable {text : String} {f : Field} (h : IsField text f) :
    f.Printable := by
  cases h with
  | intro _ _ htype _ hname _ hvalue =>
    cases hvalue with
    | intro hnumber _ _ =>
      refine ⟨?_, ?_, hnumber.lt, rfl⟩
      · rwa [Field.declare, String.toList_ofList]
      · rwa [Field.declare, String.toList_ofList]

/-- So can an item. -/
theorem Spelling.IsItem.printable {text : String} {i : Item} (h : IsItem text i) :
    i.Printable := by
  cases h with
  | intro _ hname _ hnumber _ =>
    exact ⟨by rwa [String.toList_ofList], Int.natCast_nonneg _, Int.ofNat_lt.2 hnumber.lt⟩

theorem Declaration.SpelledBy.tidy {texts : List String} {d : Declaration}
    (h : d.SpelledBy texts) : d.Tidy where
  name := by
    obtain ⟨text, -, hblock⟩ := h.name
    exact hblock.cut.1
  names := h.names
  fields f hf := by
    obtain ⟨text, -, hfield⟩ := h.fields f hf
    exact hfield.printable
  fieldsApart := h.fieldsApart
  items i hi := by
    obtain ⟨text, -, hitem⟩ := h.items i hi
    exact hitem.printable
  itemsApart := h.itemsApart

/-- The package names of a file are those of the document it derives. -/
theorem eq_toList_of_length_le_one {names : List String} (h : names.length ≤ 1) :
    names = names.head?.toList := by
  match names with
  | [] => rfl
  | [name] => rfl
  | _ :: _ :: _ => simp at h

theorem Grammar.Derives.isFile {texts : List String} {d : Document} (h : Derives texts d) :
    IsFile texts d.package.toList d.roots := by
  obtain ⟨packages, hfile, hone, hpackage⟩ := h
  rwa [hpackage, ← eq_toList_of_length_le_one hone]

/-- So everything that is read can be printed but for empty names and for comments. -/
theorem Grammar.Derives.tidy {texts : List String} {d : Document} (h : Derives texts d) :
    d.toSchema.Tidy where
  package name hname := by
    have hmem : name ∈ d.package.toList := Option.mem_toList.2 hname
    obtain ⟨text, -, hpackage⟩ := (spelledBy_of_isFile h.isFile).1 name hmem
    exact hpackage.cut.1
  declarations e he := ((spelledBy_of_isFile h.isFile).2 none 0 e he).tidy
  roots id hid e he := by
    obtain ⟨e', he', hkind⟩ := kind_of_isFile h.isFile d.placedIn id hid
    rw [he] at he'
    cases he'
    exact hkind

/-! ### Lines without comments -/

/-- What is shown of a line is a part of it. -/
theorem shownLine_part {line shown : String} (h : shown ∈ shownLine line) :
    shown.toList <:+: line.toList := by
  rw [shownLine] at h
  split at h
  · cases h
  · rw [List.mem_singleton.1 h, String.toList_ofList]
    exact trim_part line.toList

/-- A line of code has no comment at its end. -/
theorem Source.not_pair_of_mem_lines {text : String} :
    ∀ code ∈ (lines text).map (·.text), ¬['/', '/'] <:+: code.toList := by
  intro code hcode
  rw [texts_lines] at hcode
  obtain ⟨cs, -, hshown⟩ := List.mem_flatMap.1 hcode
  have hpart := shownLine_part hshown
  rw [String.toList_ofList, withoutTail] at hpart
  refine fun hpair => ?_
  split at hpart
  · next hcut => exact not_pair_of_cutAtPair hcut (hpair.trans hpart)
  · next hcut => exact cutAtPair_eq_none_iff.1 hcut (hpair.trans hpart)

namespace Sheet

theorem Clear.join {line first second : String} (h : Clear first) (sep : Char) (h' : Clear second)
    (hline : line.toList = first.toList ++ sep :: second.toList) (hsep : sep ≠ '\n' ∧ sep ≠ '/') :
    Clear line := by
  unfold Clear
  rw [hline]
  refine ⟨?_, fun hpair => ?_⟩
  · simp only [List.mem_append, List.mem_cons, not_or]
    exact ⟨h.1, hsep.1.symm, h'.1⟩
  · rcases pair_infix_of_append_cons hsep.2 hsep.2 hpair with hpair | hpair
    · exact h.2 hpair
    · exact h'.2 hpair

theorem Clear.blockLine {name : String} (h : Clear name) (kind : Kind) :
    Clear (blockLine kind name) := by
  have hkeyword : Clear kind.keyword := by cases kind <;> exact Plain.clear (by decide)
  have hbrace : Clear "\x7b" := Plain.clear (by decide)
  have hname : Clear (name ++ " \x7b") := h.join ' ' hbrace (by simp) (by decide)
  exact hkeyword.join ' ' hname (by simp [toList_blockLine]) (by decide)

theorem Clear.packageLine {name : String} (h : Clear name) : Clear s!"package {name};" := by
  have hkeyword : Clear "package" := Plain.clear (by decide)
  have hempty : Clear "" := Plain.clear (by decide)
  have hname : Clear (name ++ ";") := h.join ';' hempty (by simp) (by decide)
  exact hkeyword.join ' ' hname (by rw [toList_packageLine]; simp) (by decide)

end Sheet

/-- The lines of what is read are clear again: names are cut out of lines that are clear. -/
theorem Grammar.Derives.clear_script {texts : List String} {d : Document} (h : Derives texts d)
    (htexts : ∀ text ∈ texts, ¬['/', '/'] <:+: text.toList) :
    ∀ step ∈ d.toSchema.script, ∀ line ∈ step.added, Sheet.Clear line := by
  obtain ⟨hpackages, hdeclarations⟩ := spelledBy_of_isFile h.isFile
  have ht := h.tidy
  intro step hstep line hline
  cases Schema.prints_script d.isForest step hstep line hline with
  | version => exact Sheet.Plain.clear (by decide)
  | @package name hname =>
    obtain ⟨text, htext, hpackage⟩ := hpackages name (Option.mem_toList.2 hname)
    have hcut := hpackage.cut
    exact Sheet.Clear.packageLine ⟨hcut.1.oneLine, fun hpair => htexts text htext (hpair.trans hcut.2)⟩
  | blank => exact Sheet.Plain.clear (by decide)
  | @opening e he =>
    obtain ⟨text, htext, hblock⟩ := (hdeclarations none 0 e he).name
    have hcut := hblock.cut
    exact Sheet.Clear.blockLine
      ⟨hcut.1.oneLine, fun hpair => htexts text htext (hpair.trans hcut.2)⟩ e.kind
  | field he hf => exact (plain_of_all (Field.all_line ((ht.declarations _ he).fields _ hf))).clear
  | item he hi => exact (plain_of_all (Item.all_line ((ht.declarations _ he).items _ hi))).clear
  | closing => exact Sheet.Plain.clear (by decide)

/-- The code in the text of what is read, if nothing in the text is a comment. -/
theorem Document.lines_text {t : String} {d : Document}
    (h : Document.ofLines (Source.lines t) = .ok d)
    (hcomment : ¬Source.HoldsComment d.toSchema.text.toList) :
    (Source.lines d.toSchema.text).map (·.text) = d.texts := by
  have hderives := Document.ofLines_eq_ok_iff.1 h
  have hclear := hderives.clear_script Source.not_pair_of_mem_lines
  rw [← Document.shown_script hderives.tidy]
  exact Script.lines_text_of_clear hclear hcomment

/-! ### Lines that can be read -/

/-- A line that is a statement in some scope. -/
def Readable (text : String) : Prop :=
  (FileStatement.read? text).isSome ∨ (MessageStatement.read? text).isSome ∨
    (EnumStatement.read? text).isSome

instance (text : String) : Decidable (Readable text) := inferInstanceAs (Decidable (_ ∨ _ ∨ _))

theorem Draft.readable_of_step {r r' : Draft} {line : Line} (h : r.step line = .ok r') :
    Readable line.text := by
  rw [step] at h
  split at h
  · rw [fileLine] at h
    cases hread : FileStatement.read? line.text with
    | none => simp [hread] at h
    | some statement => exact .inl (by rw [hread]; rfl)
  · rw [messageLine] at h
    cases hread : MessageStatement.read? line.text with
    | none => simp [hread] at h
    | some statement => exact .inr (.inl (by rw [hread]; rfl))
  · rw [enumLine] at h
    cases hread : EnumStatement.read? line.text with
    | none => simp [hread] at h
    | some statement => exact .inr (.inr (by rw [hread]; rfl))

theorem Draft.readable_of_foldlM {r r' : Draft} {lines : List Line}
    (h : lines.foldlM step r = .ok r') : ∀ text ∈ lines.map (·.text), Readable text := by
  induction lines generalizing r with
  | nil => simp
  | cons line rest ih =>
    rw [List.foldlM_cons] at h
    cases hstep : r.step line with
    | error problem =>
      rw [hstep] at h
      cases h
    | ok next =>
      rw [hstep] at h
      exact List.forall_mem_cons.2 ⟨readable_of_step hstep, ih h⟩

theorem Document.readable_of_ofLines {lines : List Line} {d : Document}
    (h : Document.ofLines lines = .ok d) : ∀ text ∈ lines.map (·.text), Readable text := by
  rw [ofLines] at h
  cases hrun : lines.foldlM Draft.step Draft.start with
  | error problem =>
    rw [hrun] at h
    cases h
  | ok r => exact Draft.readable_of_foldlM hrun

/-- A block or a package without a name has no line that can be read. -/
theorem not_readable_nameless :
    (∀ kind, ¬Readable (blockLine kind "")) ∧ ¬Readable "package ;" := by
  refine ⟨fun kind => ?_, by decide⟩
  cases kind <;> decide

theorem Forest.blockLine_mem_texts {f : Forest} {parent : Option Nat} {n : Nat} :
    ∀ d ∈ f.declarations parent n, blockLine d.kind d.name ∈ f.texts := by
  induction f generalizing parent n with
  | nil => simp [declarations]
  | message name fields nested rest ihnested ihrest =>
    refine List.forall_mem_cons.2 ⟨List.mem_cons_self, ?_⟩
    refine List.forall_mem_append.2 ⟨fun d hd => ?_, fun d hd => ?_⟩
    · exact inner_subset_block _ _ _ (List.mem_append_left _ (ihnested d hd))
    · exact rest_subset_block _ _ _ (ihrest d hd)
  | enumeration name items rest ih =>
    refine List.forall_mem_cons.2 ⟨List.mem_cons_self, fun d hd => ?_⟩
    exact rest_subset_block _ _ _ (ih d hd)

/-- A document whose lines can all be read has no empty name. -/
theorem Document.named_of_readable {d : Document} (h : ∀ text ∈ d.texts, Readable text) :
    d.toSchema.Named where
  package hempty := by
    refine not_readable_nameless.2 (h _ (List.mem_append_left _ (List.mem_cons_of_mem _ ?_)))
    have hpackage : d.package = some "" := hempty
    rw [hpackage]
    exact List.mem_singleton.2 (by decide)
  declarations e he hempty := by
    refine not_readable_nameless.1 e.kind (h _ (List.mem_append_right _ ?_))
    rw [← hempty]
    exact Forest.blockLine_mem_texts e he

/-! ### Stars -/

/-- How many stars there are in a list of lines. -/
def stars (texts : List String) : Nat := (texts.flatMap String.toList).count '*'

@[simp] theorem stars_nil : stars [] = 0 := rfl

@[simp] theorem stars_cons (text : String) (rest : List String) :
    stars (text :: rest) = text.toList.count '*' + stars rest := by
  rw [stars, List.flatMap_cons, List.count_append, stars]

@[simp] theorem stars_append (first second : List String) :
    stars (first ++ second) = stars first + stars second := by
  rw [stars, List.flatMap_append, List.count_append, stars, stars]

theorem stars_eq_zero {texts : List String} (h : ∀ text ∈ texts, text.toList.all isEntryChar = true) :
    stars texts = 0 := by
  rw [stars, List.count_eq_zero]
  intro hmem
  obtain ⟨text, htext, hstar⟩ := List.mem_flatMap.1 hmem
  exact not_mem_of_all (h text htext) (by decide) hstar

theorem stars_fields {fields : List Field} (h : ∀ f ∈ fields, f.Printable) :
    stars (fields.map Field.line) = 0 :=
  stars_eq_zero (List.forall_mem_map.2 fun f hf => Field.all_line (h f hf))

theorem stars_items {items : List Item} (h : ∀ i ∈ items, i.Printable) :
    stars (items.map Item.line) = 0 :=
  stars_eq_zero (List.forall_mem_map.2 fun i hi => Item.all_line (h i hi))

/-- A block's line has no stars but those of the name, which was cut out of a line. -/
theorem Spelling.IsBlock.stars_le {kind : Kind} {text name : String}
    (h : IsBlock kind text name) : (blockLine kind name).toList.count '*' ≤ text.toList.count '*' := by
  have hkeyword : kind.keyword.toList.count '*' = 0 := by cases kind <;> decide
  have hname : name.toList.count '*' ≤ text.toList.count '*' := h.cut.2.sublist.count_le '*'
  rw [toList_blockLine]
  simpa [hkeyword] using hname

theorem Spelling.IsPackage.stars_le {text name : String} (h : IsPackage text name) :
    (s!"package {name};").toList.count '*' ≤ text.toList.count '*' := by
  have hname : name.toList.count '*' ≤ text.toList.count '*' := h.cut.2.sublist.count_le '*'
  rw [toList_packageLine]
  simpa using hname

/-- What is read from lines is written with no more stars than they have. -/
theorem stars_le_of_isBody {texts : List String} {fields : List Field} {nested : Forest}
    (h : IsBody texts fields nested) : stars nested.texts ≤ stars texts := by
  induction h with
  | nil => exact Nat.le_refl _
  | field _ _ ih =>
    rw [stars_cons]
    omega
  | enumeration hopen hitems _ _ ih =>
    have hline := hopen.stars_le
    have hzero := stars_items fun i hi =>
      (exists_of_forall₂ hitems hi).elim fun _ hitem => hitem.2.printable
    simp only [Forest.texts, List.cons_append, stars_cons, stars_append, hzero]
    omega
  | message hopen hinner _ _ ihinner ih =>
    have hline := hopen.stars_le
    have hzero := stars_fields fun f hf =>
      ((spelledBy_of_isBody hinner).1 f hf).elim fun _ hfield => hfield.2.printable
    simp only [Forest.texts, List.cons_append, stars_cons, stars_append, hzero]
    omega

theorem stars_le_of_isFile {texts packages : List String} {roots : Forest}
    (h : IsFile texts packages roots) :
    stars (packages.map fun name => s!"package {name};") + stars roots.texts ≤ stars texts := by
  induction h with
  | nil => exact Nat.le_refl _
  | ignored _ _ ih =>
    rw [stars_cons]
    omega
  | package hpackage _ ih =>
    have hline := hpackage.stars_le
    simp only [List.map_cons, stars_cons]
    omega
  | message hopen hinner _ _ ih =>
    have hline := hopen.stars_le
    have hbody := stars_le_of_isBody hinner
    have hzero := stars_fields fun f hf =>
      ((spelledBy_of_isBody hinner).1 f hf).elim fun _ hfield => hfield.2.printable
    simp only [Forest.texts, List.cons_append, stars_cons, stars_append, hzero]
    omega

theorem Document.stars_texts_le {texts : List String} {d : Document} (h : Derives texts d) :
    stars d.texts ≤ stars texts := by
  have hfile := stars_le_of_isFile h.isFile
  have hversion : "syntax = \"proto2\";".toList.count '*' = 0 := by decide
  rw [Document.texts, List.cons_append, stars_cons, stars_append, hversion]
  omega

theorem stars_shownLine (line : String) : stars (shownLine line) = line.toList.count '*' := by
  have htrim := count_trim (by decide : isBlank '*' = false) line.toList
  rw [shownLine]
  split
  · next hnil =>
    rw [hnil] at htrim
    exact htrim
  · rw [stars_cons, String.toList_ofList, htrim, stars_nil, Nat.add_zero]

/-- Finished text has the stars of the lines that show. -/
theorem Sheet.count_text (s : Sheet) : s.text.toList.count '*' = stars s.shown := by
  have hlines : ∀ lines : List String,
      (lines.map fun line => (trimLine line).toList).flatten.count '*' =
        stars (lines.flatMap shownLine) := by
    intro lines
    induction lines with
    | nil => simp
    | cons line rest ih =>
      have hline : stars (shownLine line) = (trimLine line).toList.count '*' := by
        rw [← shownLine_trimLine, stars_shownLine]
      rw [List.map_cons, List.flatten_cons, List.count_append, ih, List.flatMap_cons, stars_append,
        hline]
  have hbreak : ['\n'].count '*' = 0 := by decide
  rw [toList_text, List.count_append, count_intercalate (by decide), hlines,
    flatMap_dropWhile_blank fun _ => shownLine_of_blank, hbreak, shown, Nat.add_zero]

namespace Source

theorem count_breaks (cs : List Char) : (cs.filter (· = '\n')).count '*' = 0 := by
  rw [List.count_eq_zero]
  simp

theorem count_withoutBlocks_le (cs : List Char) : (withoutBlocks cs).count '*' ≤ cs.count '*' := by
  fun_induction withoutBlocks cs with
  | case1 => exact Nat.le_refl _
  | case2 rest inside after hcut _ ih =>
    rw [List.count_append, count_breaks, eq_of_cutAtPair hcut]
    simp only [List.count_cons, List.count_append]
    omega
  | case3 => exact Nat.le_refl _
  | case4 c rest _ ih =>
    rw [List.count_cons, List.count_cons]
    omega

/-- A comment takes its own stars with it. -/
theorem count_withoutBlocks_lt {cs : List Char} (h : HoldsComment cs) :
    (withoutBlocks cs).count '*' < cs.count '*' := by
  obtain ⟨inside, hinside⟩ := h
  fun_induction withoutBlocks cs with
  | case1 => simp at hinside
  | case2 rest _ after hcut _ _ =>
    have hafter := count_withoutBlocks_le after
    rw [List.count_append, count_breaks, eq_of_cutAtPair hcut]
    simp only [List.count_cons, List.count_append, beq_self_eq_true, if_true]
    omega
  | case3 rest hcut =>
    -- The comment cannot be closed behind the mark that opens it, nor start later.
    have hclose : ['*', '/'] <:+: rest := by
      rcases List.infix_cons_iff.1 hinside with hstart | hlater
      · have hrest := (List.cons_prefix_cons.1 (List.cons_prefix_cons.1 hstart).2).2
        exact (List.suffix_append inside _).isInfix.trans hrest.isInfix
      · rcases List.infix_cons_iff.1 hlater with hstart | hlater
        · exact absurd (List.cons_prefix_cons.1 hstart).1 (by decide)
        · exact List.IsInfix.trans ⟨'/' :: '*' :: inside, [], by simp⟩ hlater
    exact absurd hclose (cutAtPair_eq_none_iff.1 hcut)
  | case4 c rest hne ih =>
    rcases List.infix_cons_iff.1 hinside with hstart | hlater
    · obtain ⟨hc, hnext⟩ := List.cons_prefix_cons.1 hstart
      obtain ⟨tail, htail⟩ := hnext
      exact absurd htail.symm (hne _ hc.symm)
    · have hcount := ih hlater
      rw [List.count_cons, List.count_cons]
      omega

theorem withoutTail_begins (cs : List Char) : withoutTail cs <+: cs := by
  rw [withoutTail]
  split
  · next hcut => exact ⟨_, (eq_of_cutAtPair hcut).symm⟩
  · exact List.prefix_refl cs

/-- The lines of a source have no stars but those outside its comments. -/
theorem stars_lines_le (text : String) :
    stars ((lines text).map (·.text)) ≤ (withoutBlocks text.toList).count '*' := by
  have hpieces : ∀ pieces : List (List Char),
      stars (pieces.flatMap fun cs => shownLine (.ofList (withoutTail cs))) ≤
        pieces.flatten.count '*' := by
    intro pieces
    induction pieces with
    | nil => exact Nat.le_refl _
    | cons cs rest ih =>
      have htail := (withoutTail_begins cs).sublist.count_le '*'
      rw [List.flatMap_cons, stars_append, stars_shownLine, String.toList_ofList,
        List.flatten_cons, List.count_append]
      omega
  rw [texts_lines]
  exact (hpieces _).trans ((flatten_splitOn_sublist '\n' _).count_le '*')

end Source

/-- A text that is read back as it was holds no comment. -/
theorem Document.not_holdsComment {d : Document}
    (h : Document.ofLines (Source.lines d.toSchema.text) = .ok d) :
    ¬Source.HoldsComment d.toSchema.text.toList := by
  intro hcomment
  have hderives := Document.ofLines_eq_ok_iff.1 h
  have hempty : Sheet.empty.shown = [] := rfl
  have hwritten : d.toSchema.text.toList.count '*' = stars d.texts := by
    rw [Schema.text, Script.text, Sheet.count_text, Sheet.shown_run, hempty, List.nil_append,
      shown_script hderives.tidy]
  have hread := stars_texts_le hderives
  have hlines := Source.stars_lines_le d.toSchema.text
  have hlost := Source.count_withoutBlocks_lt hcomment
  omega

/-! ### Fixed forms -/

/-- What is read from a text is read back from its fixed form, if no name is empty and nothing in
the fixed form is a comment. -/
theorem Document.ofText_fixedForm {t : String} {d : Document}
    (h : Document.ofLines (Source.lines t) = .ok d) (hnamed : d.toSchema.Named)
    (hcomment : ¬Source.HoldsComment d.toSchema.text.toList) :
    Schema.ofText d.toSchema.text = .ok d.toSchema := by
  have hread : Document.ofLines (Source.lines d.toSchema.text) = .ok d := by
    rw [Document.ofLines_eq_ok_iff, Document.lines_text h hcomment]
    exact derives_texts (Document.ofLines_eq_ok_iff.1 h).tidy hnamed
  rw [Schema.ofText, Schema.ofLines_eq_toSchema, hread]
  rfl

/-- The fixed form of a text is that of the document in it. -/
theorem Output.fixedForm_eq_ok_iff {t u : String} : fixedForm t = .ok u ↔
    ∃ d, Document.ofLines (Source.lines t) = .ok d ∧ d.toSchema.text = u := by
  rw [fixedForm, Schema.ofText, Schema.ofLines_eq_toSchema]
  cases Document.ofLines (Source.lines t) with
  | error problem => simp [Except.map]
  | ok d => simp [Except.map]

/-- **A fixed form stays as it is, and gives the wrappers of the text it was made from, exactly
if no name is empty and nothing in it is a comment.** -/
theorem Output.fixedForm_stable_iff {t u : String} (h : fixedForm t = .ok u) :
    (fixedForm u = .ok u ∧ ∀ p, (wrappers p u).toOption = (wrappers p t).toOption) ↔
      ∃ s, Schema.ofText t = .ok s ∧ s.Named ∧ ¬Source.HoldsComment u.toList := by
  obtain ⟨d, hd, rfl⟩ := fixedForm_eq_ok_iff.1 h
  have ht : Schema.ofText t = .ok d.toSchema := by
    rw [Schema.ofText, Schema.ofLines_eq_toSchema, hd]
    rfl
  constructor
  · rintro ⟨hstable, -⟩
    obtain ⟨e, he, htext⟩ := fixedForm_eq_ok_iff.1 hstable
    have hcomment : ¬Source.HoldsComment d.toSchema.text.toList := by
      rw [← htext] at he ⊢
      exact Document.not_holdsComment he
    have hreadable := Document.readable_of_ofLines he
    rw [Document.lines_text hd hcomment] at hreadable
    exact ⟨d.toSchema, ht, Document.named_of_readable hreadable, hcomment⟩
  · rintro ⟨s, hs, hnamed, hcomment⟩
    rw [ht] at hs
    cases hs
    have hback := Document.ofText_fixedForm hd hnamed hcomment
    refine ⟨?_, fun p => ?_⟩
    · rw [fixedForm, hback]
      rfl
    · rw [wrappers, wrappers, Schema.linkedOfText, Schema.linkedOfText, hback, ht]

/-- Names that hold semicolons and marks of comments, none of them closed. -/
def Document.markedSample : Document where
  package := some "p; q/"
  roots := .message "Outer/*" [.declare (some .repeated) "Kind" "kinds" 1 none]
    (.enumeration "Kind" [⟨"a", 0⟩] .nil) .nil

/-- The same in another form: the package last, the enum behind the field. -/
def markedText : String :=
  "message Outer/* \x7b\n repeated Kind kinds=1 ;\n enum  Kind \x7b\n a=0;\n \x7d\n\x7d\n" ++
    "package p; q/;"

theorem Output.fixedForm_stable_iff_marked :
    fixedForm markedText = .ok Document.markedSample.toSchema.text ∧
      fixedForm Document.markedSample.toSchema.text = .ok Document.markedSample.toSchema.text ∧
      ∀ p, (wrappers p Document.markedSample.toSchema.text).toOption =
        (wrappers p markedText).toOption := by
  have hread : Schema.ofText markedText = .ok Document.markedSample.toSchema := by decide +kernel
  have h : fixedForm markedText = .ok Document.markedSample.toSchema.text := by
    rw [fixedForm, hread]
    rfl
  have hcomment : ¬Source.HoldsComment Document.markedSample.toSchema.text.toList := by
    rintro ⟨inside, hinside⟩
    have hclose : ['*', '/'] <:+: Document.markedSample.toSchema.text.toList :=
      List.IsInfix.trans ⟨'/' :: '*' :: inside, [], by simp⟩ hinside
    exact absurd hclose (by decide +kernel)
  exact ⟨h, (fixedForm_stable_iff h).2 ⟨Document.markedSample.toSchema, hread,
    ⟨by decide, by decide⟩, hcomment⟩⟩

/-- A package name of white space alone is accepted, and printed as a line that is not. -/
theorem Output.fixedForm_unstable_nameless :
    fixedForm "package  ;" = .ok "syntax = \"proto2\";\npackage ;\n" ∧
      fixedForm "syntax = \"proto2\";\npackage ;\n" ≠
        .ok "syntax = \"proto2\";\npackage ;\n" ∧
      (wrappers ⟨"", ""⟩ "syntax = \"proto2\";\npackage ;\n").toOption ≠
        (wrappers ⟨"", ""⟩ "package  ;").toOption :=
  ⟨by decide +kernel, by decide +kernel, by decide +kernel⟩

/-- What is left of a name around a comment may be a comment again, and then the name changes. -/
example : Output.fixedForm "message A//**/*x*/B \x7b\n\x7d" =
      .ok "syntax = \"proto2\";\n\nmessage A/*x*/B \x7b\n\x7d\n" ∧
    Output.fixedForm "syntax = \"proto2\";\n\nmessage A/*x*/B \x7b\n\x7d\n" =
      .ok "syntax = \"proto2\";\n\nmessage AB \x7b\n\x7d\n" := by
  decide +kernel

end SwiftWrap
