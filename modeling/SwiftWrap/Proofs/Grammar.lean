import SwiftWrap.Output
import SwiftWrap.Proofs.Reading
import SwiftWrap.Proofs.Spelling
import Mathlib.Data.List.Forall2

/-! The grammar of schemas.

`Grammar.IsBody` and `Grammar.IsFile` derive declarations from lines by the forms of the lines
alone: there are no open blocks in them, and no order in which forms are tried. What is
asked of names and indices is asked of one block at a time.

`Draft.Steps` says what a line can do to a reader, and `Draft.Runs` what lines can do.
A derivation of a block is a run that leaves the blocks around it alone, and every run
that gets out of a block has derived it. So the reader accepts exactly what the grammar
derives (`Document.ofLines_eq_ok_iff`). -/
namespace SwiftWrap
open Spelling

/-! ### Derivations -/

namespace Grammar

/-- No name and no index occurs twice. -/
def Apart (name : α → String) (index : α → β) (l : List α) : Prop :=
  l.Pairwise fun a b => name a ≠ name b ∧ index a ≠ index b

/-- The lines inside a message: fields, enums and messages in any order. -/
inductive IsBody : List String → List Field → Forest → Prop where
  | nil : IsBody [] [] .nil
  | field {text : String} {f : Field} {rest : List String} {fields : List Field}
      {nested : Forest} (hfield : IsField text f) (hrest : IsBody rest fields nested) :
      IsBody (text :: rest) (f :: fields) nested
  | enumeration {text name : String} {inner : List String} {items : List Item}
      {rest : List String} {fields : List Field} {nested : Forest}
      (hopen : IsBlock .enumeration text name) (hitems : List.Forall₂ IsItem inner items)
      (hapart : Apart Item.name Item.index items) (hrest : IsBody rest fields nested) :
      IsBody (text :: inner ++ "\x7d" :: rest) fields (.enumeration name items nested)
  | message {text name : String} {inner : List String} {innerFields : List Field}
      {innerNested : Forest} {rest : List String} {fields : List Field} {nested : Forest}
      (hopen : IsBlock .message text name) (hinner : IsBody inner innerFields innerNested)
      (hapart : Apart Field.name Field.index innerFields) (hrest : IsBody rest fields nested) :
      IsBody (text :: inner ++ "\x7d" :: rest) fields (.message name innerFields innerNested nested)

/-- The lines of a file, with all the package names in it. -/
inductive IsFile : List String → List String → Forest → Prop where
  | nil : IsFile [] [] .nil
  | ignored {text : String} {rest packages : List String} {roots : Forest}
      (hignored : IsIgnored text) (hrest : IsFile rest packages roots) :
      IsFile (text :: rest) packages roots
  | package {text name : String} {rest packages : List String} {roots : Forest}
      (hpackage : IsPackage text name) (hrest : IsFile rest packages roots) :
      IsFile (text :: rest) (name :: packages) roots
  | message {text name : String} {inner : List String} {fields : List Field} {nested : Forest}
      {rest packages : List String} {roots : Forest} (hopen : IsBlock .message text name)
      (hinner : IsBody inner fields nested) (hapart : Apart Field.name Field.index fields)
      (hrest : IsFile rest packages roots) :
      IsFile (text :: inner ++ "\x7d" :: rest) packages (.message name fields nested roots)

/-- The lines of a document: those of a file with one package name at most. -/
def Derives (texts : List String) (d : Document) : Prop :=
  ∃ packages, IsFile texts packages d.roots ∧ packages.length ≤ 1 ∧ d.package = packages.head?

end Grammar

open Grammar

/-! ### Steps of the reader -/

/-- A value behind two guards. -/
theorem guarded_eq_ok_iff {c d : Bool} {e₁ e₂ : ε} {a b : α} :
    (if c then .error e₁ else if d then .error e₂ else .ok a : Except ε α) = .ok b ↔
      (c = false ∧ d = false) ∧ b = a := by
  cases c <;> cases d <;> simp [eq_comm]

/-- A field is added if neither its name nor its index is taken. -/
theorem Field.addedTo_eq_ok_iff {fields fields' : List Field} {message : String} {number : Nat}
    {f : Field} : f.addedTo fields message number = .ok fields' ↔
      (∀ g ∈ fields, g.name ≠ f.name ∧ g.index ≠ f.index) ∧ fields' = fields ++ [f] := by
  rw [addedTo, guarded_eq_ok_iff]
  simp only [List.any_eq_false, beq_iff_eq, ← forall₂_and, ne_eq]

/-- So is an item. -/
theorem Item.addedTo_eq_ok_iff {items items' : List Item} {enumeration : String} {number : Nat}
    {i : Item} : i.addedTo items enumeration number = .ok items' ↔
      (∀ j ∈ items, j.name ≠ i.name ∧ j.index ≠ i.index) ∧ items' = items ++ [i] := by
  rw [addedTo, guarded_eq_ok_iff]
  simp only [List.any_eq_false, beq_iff_eq, ← forall₂_and, ne_eq]

theorem map_eq_ok_iff {f : α → β} {x : Except ε α} {b : β} :
    x.map f = .ok b ↔ ∃ a, x = .ok a ∧ b = f a := by
  cases x <;> simp [Except.map, eq_comm]

theorem DraftMessage.addField_eq_ok_iff {block block' : DraftMessage} {number : Nat} {f : Field} :
    block.addField number f = .ok block' ↔
      (∀ g ∈ block.fields, g.name ≠ f.name ∧ g.index ≠ f.index) ∧
        block' = { block with fields := block.fields ++ [f] } := by
  simp only [addField, map_eq_ok_iff, Field.addedTo_eq_ok_iff, and_assoc, exists_and_left,
    exists_eq_left]

theorem DraftEnum.addItem_eq_ok_iff {block block' : DraftEnum} {number : Nat} {i : Item} :
    block.addItem number i = .ok block' ↔
      (∀ j ∈ block.items, j.name ≠ i.name ∧ j.index ≠ i.index) ∧
        block' = { block with items := block.items ++ [i] } := by
  simp only [addItem, map_eq_ok_iff, Item.addedTo_eq_ok_iff, and_assoc, exists_and_left,
    exists_eq_left]

namespace Draft

/-- What a line of a given text can do. -/
inductive Steps : Draft → String → Draft → Prop where
  | ignored {package : Option String} {roots : Forest} {text : String} (h : IsIgnored text) :
      Steps ⟨package, roots, .file⟩ text ⟨package, roots, .file⟩
  | package {roots : Forest} {text name : String} (h : IsPackage text name) :
      Steps ⟨none, roots, .file⟩ text ⟨some name, roots, .file⟩
  | openRoot {package : Option String} {roots : Forest} {text name : String}
      (h : IsBlock .message text name) :
      Steps ⟨package, roots, .file⟩ text ⟨package, roots, .message (.start name) []⟩
  | closeMessage {package : Option String} {roots : Forest} {block : DraftMessage}
      {outer : List DraftMessage} :
      Steps ⟨package, roots, .message block outer⟩ "\x7d"
        (Draft.closeMessage ⟨package, roots, .file⟩ block outer)
  | openEnum {package : Option String} {roots : Forest} {block : DraftMessage}
      {outer : List DraftMessage} {text name : String} (h : IsBlock .enumeration text name) :
      Steps ⟨package, roots, .message block outer⟩ text
        ⟨package, roots, .enumeration ⟨name, []⟩ block outer⟩
  | openMessage {package : Option String} {roots : Forest} {block : DraftMessage}
      {outer : List DraftMessage} {text name : String} (h : IsBlock .message text name) :
      Steps ⟨package, roots, .message block outer⟩ text
        ⟨package, roots, .message (.start name) (block :: outer)⟩
  | field {package : Option String} {roots : Forest} {block : DraftMessage}
      {outer : List DraftMessage} {text : String} {f : Field} (h : IsField text f)
      (hnew : ∀ g ∈ block.fields, g.name ≠ f.name ∧ g.index ≠ f.index) :
      Steps ⟨package, roots, .message block outer⟩ text
        ⟨package, roots, .message { block with fields := block.fields ++ [f] } outer⟩
  | closeEnum {package : Option String} {roots : Forest} {block : DraftEnum}
      {owner : DraftMessage} {outer : List DraftMessage} :
      Steps ⟨package, roots, .enumeration block owner outer⟩ "\x7d"
        ⟨package, roots, .message (owner.nest (.enumeration block.name block.items .nil)) outer⟩
  | item {package : Option String} {roots : Forest} {block : DraftEnum} {owner : DraftMessage}
      {outer : List DraftMessage} {text : String} {i : Item} (h : IsItem text i)
      (hnew : ∀ j ∈ block.items, j.name ≠ i.name ∧ j.index ≠ i.index) :
      Steps ⟨package, roots, .enumeration block owner outer⟩ text
        ⟨package, roots, .enumeration { block with items := block.items ++ [i] } owner outer⟩

theorem closeMessage_blocks (package : Option String) (roots : Forest) (blocks : DraftBlocks)
    (block : DraftMessage) (outer : List DraftMessage) :
    closeMessage ⟨package, roots, blocks⟩ block outer =
      closeMessage ⟨package, roots, .file⟩ block outer := by
  cases outer <;> rfl

theorem steps_of_fileLine {package : Option String} {roots : Forest} {line : Line} {r : Draft}
    (h : fileLine ⟨package, roots, .file⟩ line = .ok r) :
    Steps ⟨package, roots, .file⟩ line.text r := by
  unfold fileLine at h
  split at h
  · cases h
  · next hread =>
    cases h
    cases FileStatement.read?_eq_some_iff.1 hread with
    | ignored hignored => exact .ignored hignored
  · next name hread =>
    cases FileStatement.read?_eq_some_iff.1 hread with
    | package hname =>
      cases package with
      | some other => cases h
      | none =>
        cases h
        exact .package hname
  · next name hread =>
    cases h
    cases FileStatement.read?_eq_some_iff.1 hread with
    | openMessage hname => exact .openRoot hname

theorem steps_of_messageLine {package : Option String} {roots : Forest} {block : DraftMessage}
    {outer : List DraftMessage} {line : Line} {r : Draft}
    (h : messageLine ⟨package, roots, .message block outer⟩ block outer line = .ok r) :
    Steps ⟨package, roots, .message block outer⟩ line.text r := by
  unfold messageLine at h
  split at h
  · cases h
  · next hread =>
    cases h
    cases MessageStatement.read?_eq_some_iff.1 hread with
    | close htext =>
      rw [htext, closeMessage_blocks]
      exact .closeMessage
  · next name hread =>
    cases h
    cases MessageStatement.read?_eq_some_iff.1 hread with
    | openEnum hname => exact .openEnum hname
  · next name hread =>
    cases h
    cases MessageStatement.read?_eq_some_iff.1 hread with
    | openMessage hname => exact .openMessage hname
  · next f hread =>
    cases MessageStatement.read?_eq_some_iff.1 hread with
    | field hf =>
      cases hadd : block.addField line.number f with
      | error problem =>
        rw [hadd] at h
        cases h
      | ok block' =>
        rw [hadd] at h
        cases h
        obtain ⟨hnew, rfl⟩ := DraftMessage.addField_eq_ok_iff.1 hadd
        exact .field hf hnew

theorem steps_of_enumLine {package : Option String} {roots : Forest} {block : DraftEnum}
    {owner : DraftMessage} {outer : List DraftMessage} {line : Line} {r : Draft}
    (h : enumLine ⟨package, roots, .enumeration block owner outer⟩ block owner outer line = .ok r) :
    Steps ⟨package, roots, .enumeration block owner outer⟩ line.text r := by
  unfold enumLine at h
  split at h
  · cases h
  · next hread =>
    cases h
    cases EnumStatement.read?_eq_some_iff.1 hread with
    | close htext =>
      rw [htext]
      exact .closeEnum
  · next i hread =>
    cases EnumStatement.read?_eq_some_iff.1 hread with
    | item hi =>
      cases hadd : block.addItem line.number i with
      | error problem =>
        rw [hadd] at h
        cases h
      | ok block' =>
        rw [hadd] at h
        cases h
        obtain ⟨hnew, rfl⟩ := DraftEnum.addItem_eq_ok_iff.1 hadd
        exact .item hi hnew

/-- Each step of the reader is one that the form of the line allows. -/
theorem steps_of_step {r r' : Draft} {line : Line} (h : r.step line = .ok r') :
    r.Steps line.text r' := by
  obtain ⟨package, roots, blocks⟩ := r
  cases blocks with
  | file => exact steps_of_fileLine h
  | message block outer => exact steps_of_messageLine h
  | enumeration block owner outer => exact steps_of_enumLine h

/-- And the reader takes each of these, whichever form it tries first. -/
theorem step_of_steps {r r' : Draft} {line : Line} (h : r.Steps line.text r') :
    r.step line = .ok r' := by
  obtain ⟨text, number⟩ := line
  cases h with
  | ignored h =>
    show fileLine _ _ = _
    rw [fileLine, FileStatement.read?_eq_some_iff.2 (.ignored h)]
  | package h =>
    show fileLine _ _ = _
    rw [fileLine, FileStatement.read?_eq_some_iff.2 (.package h)]
    rfl
  | openRoot h =>
    show fileLine _ _ = _
    rw [fileLine, FileStatement.read?_eq_some_iff.2 (.openMessage h)]
  | closeMessage =>
    show messageLine _ _ _ _ = _
    rw [messageLine, MessageStatement.read?_eq_some_iff.2 (.close rfl)]
    exact congrArg Except.ok (closeMessage_blocks ..)
  | openEnum h =>
    show messageLine _ _ _ _ = _
    rw [messageLine, MessageStatement.read?_eq_some_iff.2 (.openEnum h)]
  | openMessage h =>
    show messageLine _ _ _ _ = _
    rw [messageLine, MessageStatement.read?_eq_some_iff.2 (.openMessage h)]
  | field h hnew =>
    show messageLine _ _ _ _ = _
    rw [messageLine, MessageStatement.read?_eq_some_iff.2 (.field h)]
    simp only [DraftMessage.addField_eq_ok_iff.2 ⟨hnew, rfl⟩]
    rfl
  | closeEnum =>
    show enumLine _ _ _ _ _ = _
    rw [enumLine, EnumStatement.read?_eq_some_iff.2 (.close rfl)]
  | item h hnew =>
    show enumLine _ _ _ _ _ = _
    rw [enumLine, EnumStatement.read?_eq_some_iff.2 (.item h)]
    simp only [DraftEnum.addItem_eq_ok_iff.2 ⟨hnew, rfl⟩]
    rfl

/-- What lines of given texts can do, one after another. -/
inductive Runs : Draft → List String → Draft → Prop where
  | nil {r : Draft} : Runs r [] r
  | cons {r r' r'' : Draft} {text : String} {rest : List String} (hstep : r.Steps text r')
      (hrest : Runs r' rest r'') : Runs r (text :: rest) r''

theorem Runs.append {r r' r'' : Draft} {first second : List String} (h : r.Runs first r')
    (h' : r'.Runs second r'') : r.Runs (first ++ second) r'' := by
  induction h with
  | nil => exact h'
  | cons hstep _ ih => exact .cons hstep (ih h')

/-- Reading lines is running through their texts. -/
theorem foldlM_step_eq_ok_iff {r r' : Draft} {lines : List Line} :
    lines.foldlM step r = .ok r' ↔ r.Runs (lines.map (·.text)) r' := by
  induction lines generalizing r with
  | nil =>
    constructor
    · intro h
      cases h
      exact .nil
    · intro h
      cases h
      rfl
  | cons line rest ih =>
    rw [List.foldlM_cons, List.map_cons]
    constructor
    · intro h
      cases hstep : r.step line with
      | error problem =>
        rw [hstep] at h
        cases h
      | ok next =>
        rw [hstep] at h
        exact .cons (steps_of_step hstep) (ih.1 h)
    · intro h
      cases h with
      | cons hstep hrest =>
        rw [step_of_steps hstep]
        exact ih.2 hrest

/-- A document ends outside all blocks. -/
theorem finish_eq_ok_iff {r : Draft} {d : Document} :
    r.finish = .ok d ↔ r.blocks = .file ∧ d = ⟨r.package, r.roots⟩ := by
  obtain ⟨package, roots, blocks⟩ := r
  cases blocks <;> simp [finish, eq_comm]

/-! ### Derivations are runs -/

theorem apart_cons_right {name : α → String} {index : α → β} {l : List α} {a : α} {rest : List α}
    (h : Apart name index (l ++ a :: rest)) :
    (∀ b ∈ l, name b ≠ name a ∧ index b ≠ index a) ∧ Apart name index (l ++ [a] ++ rest) := by
  refine ⟨fun b hb => ?_, by rwa [List.append_assoc, List.singleton_append]⟩
  exact (List.pairwise_append.1 h).2.2 b hb a List.mem_cons_self

/-- The items of an enum are read one after another. -/
theorem runs_items {texts : List String} {items : List Item}
    (h : List.Forall₂ IsItem texts items) (package : Option String) (roots : Forest)
    (block : DraftEnum) (owner : DraftMessage) (outer : List DraftMessage)
    (hapart : Apart Item.name Item.index (block.items ++ items)) :
    Runs ⟨package, roots, .enumeration block owner outer⟩ texts
      ⟨package, roots, .enumeration ⟨block.name, block.items ++ items⟩ owner outer⟩ := by
  induction h generalizing block with
  | nil =>
    rw [List.append_nil]
    exact .nil
  | cons hitem _ ih =>
    obtain ⟨hnew, hrest⟩ := apart_cons_right hapart
    have htail := ih ⟨block.name, _⟩ hrest
    rw [List.append_assoc] at htail
    exact .cons (.item hitem hnew) htail

/-- The lines inside a message add what they derive to it, and touch nothing around it. -/
theorem runs_body {texts : List String} {fields : List Field} {nested : Forest}
    (h : IsBody texts fields nested) (package : Option String) (roots : Forest)
    (block : DraftMessage) (outer : List DraftMessage)
    (hapart : Apart Field.name Field.index (block.fields ++ fields)) :
    Runs ⟨package, roots, .message block outer⟩ texts
      ⟨package, roots,
        .message ⟨block.name, block.fields ++ fields, block.nested ++ nested⟩ outer⟩ := by
  induction h generalizing block outer with
  | nil =>
    rw [List.append_nil, Forest.append_nil]
    exact .nil
  | field hfield _ ih =>
    obtain ⟨hnew, hrest⟩ := apart_cons_right hapart
    have htail := ih ⟨block.name, _, block.nested⟩ outer hrest
    rw [List.append_assoc] at htail
    exact .cons (.field hfield hnew) htail
  | @enumeration _ name _ items _ _ nested hopen hitems hitemsApart _ ih =>
    have hblock := runs_items hitems package roots ⟨name, []⟩ block outer hitemsApart
    have hrest := ih (block.nest (.enumeration name items .nil)) outer hapart
    have hall := (Runs.cons (.openEnum hopen) hblock).append (.cons .closeEnum hrest)
    simpa only [DraftMessage.nest, Forest.append_assoc, Forest.enumeration_append,
      Forest.nil_append] using hall
  | @message _ name _ innerFields innerNested _ _ nested hopen _ hinnerApart _ ihinner ih =>
    have hblock := ihinner (.start name) (block :: outer) hinnerApart
    have hrest := ih (block.nest (.message name innerFields innerNested .nil)) outer hapart
    have hall := (Runs.cons (.openMessage hopen) hblock).append (.cons .closeMessage hrest)
    simpa only [DraftMessage.nest, Forest.append_assoc, Forest.message_append,
      Forest.nil_append] using hall

/-- A file that is derived is read, with one package at most. -/
theorem runs_file {texts packages : List String} {forest : Forest}
    (h : IsFile texts packages forest) (package : Option String) (roots : Forest)
    (hone : (package.toList ++ packages).length ≤ 1) :
    Runs ⟨package, roots, .file⟩ texts
      ⟨(package.toList ++ packages).head?, roots ++ forest, .file⟩ := by
  induction h generalizing package roots with
  | nil =>
    rw [List.append_nil, Option.head?_toList, Forest.append_nil]
    exact .nil
  | ignored hignored _ ih => exact .cons (.ignored hignored) (ih package roots hone)
  | @package _ name _ _ _ hpackage _ ih =>
    cases package with
    | some other => simp at hone
    | none => exact .cons (.package hpackage) (ih (some name) roots hone)
  | @message _ name _ fields nested _ _ _ hopen hinner hapart _ ih =>
    have hblock := runs_body hinner package roots (.start name) [] hapart
    have hrest := ih package (roots ++ .message name fields nested .nil) hone
    have hall := (Runs.cons (.openRoot hopen) hblock).append (.cons .closeMessage hrest)
    simpa only [Forest.append_assoc, Forest.message_append, Forest.nil_append] using hall

/-! ### Runs are derivations

A run that ends at file scope gets out of every block on its way. -/

theorem apart_concat {name : α → String} {index : α → β} {l : List α} {a : α}
    (h : Apart name index l) (hnew : ∀ b ∈ l, name b ≠ name a ∧ index b ≠ index a) :
    Apart name index (l ++ [a]) := by
  refine List.pairwise_append.2 ⟨h, List.pairwise_singleton .., fun b hb c hc => ?_⟩
  rw [List.mem_singleton.1 hc]
  exact hnew b hb

/-- A run out of an enum goes through its items and its closing line. -/
theorem Runs.items {package : Option String} {roots : Forest} {block : DraftEnum}
    {owner : DraftMessage} {outer : List DraftMessage} {texts : List String} {r : Draft}
    (h : Runs ⟨package, roots, .enumeration block owner outer⟩ texts r) (hend : r.blocks = .file)
    (hblock : Apart Item.name Item.index block.items) : ∃ inner items rest,
      texts = inner ++ "\x7d" :: rest ∧ List.Forall₂ IsItem inner items ∧
      Apart Item.name Item.index (block.items ++ items) ∧
      Runs ⟨package, roots, .message
        (owner.nest (.enumeration block.name (block.items ++ items) .nil)) outer⟩ rest r := by
  induction texts generalizing block with
  | nil =>
    cases h
    cases hend
  | cons text texts ih =>
    cases h with
    | cons hstep hrun =>
      cases hstep with
      | closeEnum =>
        exact ⟨[], [], texts, rfl, .nil, by rwa [List.append_nil], by rwa [List.append_nil]⟩
      | item hitem hnew =>
        obtain ⟨inner, items, rest, rfl, hinner, hapart, hrest⟩ :=
          ih hrun (apart_concat hblock hnew)
        rw [List.append_assoc] at hapart hrest
        exact ⟨text :: inner, _ :: items, rest, rfl, .cons hitem hinner, hapart, hrest⟩

/-- A run out of a message goes through its body and its closing line. The induction is on
the number of lines, since a nested block takes many. -/
theorem Runs.body {package : Option String} {roots : Forest} {block : DraftMessage}
    {outer : List DraftMessage} {texts : List String} {r : Draft}
    (h : Runs ⟨package, roots, .message block outer⟩ texts r) (hend : r.blocks = .file)
    (hblock : Apart Field.name Field.index block.fields) : ∃ inner fields nested rest,
      texts = inner ++ "\x7d" :: rest ∧ IsBody inner fields nested ∧
      Apart Field.name Field.index (block.fields ++ fields) ∧
      Runs (closeMessage ⟨package, roots, .file⟩
        ⟨block.name, block.fields ++ fields, block.nested ++ nested⟩ outer) rest r := by
  induction hn : texts.length using Nat.strongRecOn generalizing texts block outer with
  | _ n ih =>
    subst hn
    cases h with
    | nil => cases hend
    | @cons _ _ _ text texts hstep hrun =>
      cases hstep with
      | closeMessage =>
        refine ⟨[], [], .nil, texts, rfl, .nil, by rwa [List.append_nil], ?_⟩
        rwa [List.append_nil, Forest.append_nil]
      | openEnum hopen =>
        obtain ⟨inner, items, rest, rfl, hinner, hapart, hafter⟩ := hrun.items hend .nil
        obtain ⟨body, fields, nested, rest', rfl, hbody, hfields, hclose⟩ :=
          ih rest.length (by simp; omega) hafter hblock rfl
        refine ⟨text :: inner ++ "\x7d" :: body, fields, _, rest', by simp,
          .enumeration hopen hinner hapart hbody, hfields, ?_⟩
        simpa only [DraftMessage.nest, List.nil_append, Forest.append_assoc,
          Forest.enumeration_append, Forest.nil_append] using hclose
      | openMessage hopen =>
        obtain ⟨inner, innerFields, innerNested, rest, rfl, hinner, hapart, hafter⟩ :=
          ih texts.length (by simp) hrun .nil rfl
        obtain ⟨body, fields, nested, rest', rfl, hbody, hfields, hclose⟩ :=
          ih rest.length (by simp; omega) hafter hblock rfl
        refine ⟨text :: inner ++ "\x7d" :: body, fields, _, rest', by simp,
          .message hopen hinner hapart hbody, hfields, ?_⟩
        simpa only [DraftMessage.nest, DraftMessage.finish, DraftMessage.start, List.nil_append,
          Forest.append_assoc, Forest.message_append, Forest.nil_append] using hclose
      | field hfield hnew =>
        obtain ⟨body, fields, nested, rest, rfl, hbody, hfields, hclose⟩ :=
          ih texts.length (by simp) hrun (apart_concat hblock hnew) rfl
        rw [List.append_assoc] at hfields hclose
        exact ⟨text :: body, _ :: fields, nested, rest, rfl, .field hfield hbody, hfields, hclose⟩

/-- What is read outside all blocks is derived as a file. -/
theorem Runs.file {package : Option String} {roots : Forest} {texts : List String} {r : Draft}
    (h : Runs ⟨package, roots, .file⟩ texts r) (hend : r.blocks = .file) :
    ∃ packages forest, IsFile texts packages forest ∧
      (package.toList ++ packages).length ≤ 1 ∧
      r = ⟨(package.toList ++ packages).head?, roots ++ forest, .file⟩ := by
  induction hn : texts.length using Nat.strongRecOn generalizing texts package roots with
  | _ n ih =>
    subst hn
    cases h with
    | nil =>
      refine ⟨[], .nil, .nil, ?_, ?_⟩
      · cases package <;> simp
      · rw [List.append_nil, Option.head?_toList, Forest.append_nil]
    | @cons _ _ _ text texts hstep hrun =>
      cases hstep with
      | ignored hignored =>
        obtain ⟨packages, forest, hrest, hone, rfl⟩ := ih texts.length (by simp) hrun rfl
        exact ⟨packages, forest, .ignored hignored hrest, hone, rfl⟩
      | package hpackage =>
        obtain ⟨packages, forest, hrest, hone, rfl⟩ := ih texts.length (by simp) hrun rfl
        exact ⟨_ :: packages, forest, .package hpackage hrest, hone, rfl⟩
      | openRoot hopen =>
        obtain ⟨inner, fields, nested, rest, rfl, hinner, hapart, hafter⟩ := hrun.body hend .nil
        obtain ⟨packages, forest, hrest, hone, rfl⟩ :=
          ih rest.length (by simp; omega) hafter rfl
        refine ⟨packages, _, .message hopen hinner hapart hrest, hone, ?_⟩
        simp only [DraftMessage.finish, DraftMessage.start, List.nil_append, Forest.append_assoc,
          Forest.message_append, Forest.nil_append]

end Draft

/-! ### Documents -/

/-- **The reader accepts exactly what the grammar derives.** -/
theorem Document.ofLines_eq_ok_iff {lines : List Line} {d : Document} :
    Document.ofLines lines = .ok d ↔ Derives (lines.map (·.text)) d := by
  unfold ofLines
  constructor
  · intro h
    cases hrun : lines.foldlM Draft.step Draft.start with
    | error problem =>
      rw [hrun] at h
      cases h
    | ok r =>
      rw [hrun] at h
      obtain ⟨hend, rfl⟩ := Draft.finish_eq_ok_iff.1 h
      obtain ⟨packages, forest, hfile, hone, rfl⟩ :=
        (Draft.foldlM_step_eq_ok_iff.1 hrun).file hend
      exact ⟨packages, hfile, hone, rfl⟩
  · intro hx
    obtain ⟨packages, hfile, hone, hpackage⟩ := hx
    have hrun := Draft.runs_file hfile none .nil hone
    have hlines : lines.foldlM Draft.step Draft.start = .ok ⟨d.package, d.roots, .file⟩ := by
      rw [Draft.foldlM_step_eq_ok_iff, hpackage]
      exact hrun
    rw [hlines]
    rfl

/-! ### Declarations as they are read -/

/-- A field whose type has not been looked up. -/
def Field.AsDeclared (f : Field) : Prop := f.type = initialType f.typeName

/-- A field that is read has the type that its name alone gives it. -/
theorem Spelling.IsField.asDeclared {text : String} {f : Field} (h : IsField text f) :
    f.AsDeclared := by
  cases h
  rfl

/-- Whatever a declaration has was spelled by some line. -/
structure Declaration.SpelledBy (texts : List String) (d : Declaration) : Prop where
  name : ∃ text ∈ texts, IsBlock d.kind text d.name
  names : d.names = .none
  fields : ∀ f ∈ d.fields, ∃ text ∈ texts, IsField text f
  fieldsApart : Apart Field.name Field.index d.fields
  items : ∀ i ∈ d.items, ∃ text ∈ texts, IsItem text i
  itemsApart : Apart Item.name Item.index d.items

theorem Declaration.SpelledBy.mono {texts more : List String} {d : Declaration}
    (h : d.SpelledBy texts) (hmore : texts ⊆ more) : d.SpelledBy more where
  name := h.name.imp fun _ => .imp_left (hmore ·)
  names := h.names
  fields f hf := (h.fields f hf).imp fun _ => .imp_left (hmore ·)
  fieldsApart := h.fieldsApart
  items i hi := (h.items i hi).imp fun _ => .imp_left (hmore ·)
  itemsApart := h.itemsApart

theorem spelledBy_message {text name : String} {inner : List String} {fields : List Field}
    (hopen : IsBlock .message text name) (hfields : ∀ f ∈ fields, ∃ text ∈ inner, IsField text f)
    (hapart : Apart Field.name Field.index fields) (parent : Option Nat) (children : List Nat) :
    Declaration.SpelledBy (text :: inner) ⟨name, parent, .message children fields, .none⟩ where
  name := ⟨text, List.mem_cons_self, hopen⟩
  names := rfl
  fields f hf := (hfields f hf).imp fun _ => .imp_left (List.mem_cons_of_mem text)
  fieldsApart := hapart
  items i hi := by cases hi
  itemsApart := .nil

theorem exists_of_forall₂ {R : α → β → Prop} {l : List α} {l' : List β} (h : List.Forall₂ R l l')
    {b : β} (hb : b ∈ l') : ∃ a ∈ l, R a b := by
  induction h with
  | nil => cases hb
  | cons hab _ ih =>
    rcases List.mem_cons.1 hb with rfl | hb
    · exact ⟨_, List.mem_cons_self, hab⟩
    · obtain ⟨a, ha, hr⟩ := ih hb
      exact ⟨a, List.mem_cons_of_mem _ ha, hr⟩

theorem spelledBy_enumeration {text name : String} {inner : List String} {items : List Item}
    (hopen : IsBlock .enumeration text name) (hitems : List.Forall₂ IsItem inner items)
    (hapart : Apart Item.name Item.index items) (parent : Option Nat) :
    Declaration.SpelledBy (text :: inner) ⟨name, parent, .enumeration items, .none⟩ where
  name := ⟨text, List.mem_cons_self, hopen⟩
  names := rfl
  fields f hf := by cases hf
  fieldsApart := .nil
  items i hi :=
    (exists_of_forall₂ hitems hi).imp fun _ => .imp_left (List.mem_cons_of_mem text)
  itemsApart := hapart

theorem inner_subset_block (text : String) (inner rest : List String) :
    inner ⊆ text :: inner ++ "\x7d" :: rest :=
  fun _ h => List.mem_append_left _ (List.mem_cons_of_mem text h)

theorem rest_subset_block (text : String) (inner rest : List String) :
    rest ⊆ text :: inner ++ "\x7d" :: rest :=
  fun _ h => List.mem_append_right _ (List.mem_cons_of_mem _ h)

/-- All that a body holds is spelled by its lines. -/
theorem spelledBy_of_isBody {texts : List String} {fields : List Field} {nested : Forest}
    (h : IsBody texts fields nested) : (∀ f ∈ fields, ∃ text ∈ texts, IsField text f) ∧
      ∀ parent n, ∀ d ∈ nested.declarations parent n, d.SpelledBy texts := by
  induction h with
  | nil => exact ⟨by simp, by simp [Forest.declarations]⟩
  | @field text _ _ _ _ hfield _ ih =>
    refine ⟨List.forall_mem_cons.2 ⟨⟨text, List.mem_cons_self, hfield⟩, fun f hf => ?_⟩, ?_⟩
    · exact (ih.1 f hf).imp fun _ => .imp_left (List.mem_cons_of_mem text)
    · exact fun parent n d hd => (ih.2 parent n d hd).mono (List.subset_cons_self ..)
  | enumeration hopen hitems hapart _ ih =>
    refine ⟨fun f hf => ?_, fun parent n => List.forall_mem_cons.2 ⟨?_, fun d hd => ?_⟩⟩
    · exact (ih.1 f hf).imp fun _ => .imp_left (rest_subset_block _ _ _ ·)
    · exact (spelledBy_enumeration hopen hitems hapart parent).mono (List.subset_append_left ..)
    · exact (ih.2 parent _ d hd).mono (rest_subset_block ..)
  | message hopen _ hapart _ ihinner ih =>
    refine ⟨fun f hf => ?_, fun parent n => List.forall_mem_cons.2 ⟨?_, ?_⟩⟩
    · exact (ih.1 f hf).imp fun _ => .imp_left (rest_subset_block _ _ _ ·)
    · exact (spelledBy_message hopen ihinner.1 hapart parent _).mono (List.subset_append_left ..)
    · refine List.forall_mem_append.2 ⟨fun d hd => ?_, fun d hd => ?_⟩
      · exact (ihinner.2 (some n) _ d hd).mono (inner_subset_block ..)
      · exact (ih.2 parent _ d hd).mono (rest_subset_block ..)

theorem spelledBy_of_isFile {texts packages : List String} {roots : Forest}
    (h : IsFile texts packages roots) : (∀ name ∈ packages, ∃ text ∈ texts, IsPackage text name) ∧
      ∀ parent n, ∀ d ∈ roots.declarations parent n, d.SpelledBy texts := by
  induction h with
  | nil => exact ⟨by simp, by simp [Forest.declarations]⟩
  | @ignored text _ _ _ _ _ ih =>
    refine ⟨fun name hname => ?_, fun parent n d hd => ?_⟩
    · exact (ih.1 name hname).imp fun _ => .imp_left (List.mem_cons_of_mem text)
    · exact (ih.2 parent n d hd).mono (List.subset_cons_self ..)
  | @package text _ _ _ _ hpackage _ ih =>
    refine ⟨List.forall_mem_cons.2 ⟨⟨text, List.mem_cons_self, hpackage⟩, fun name hname => ?_⟩, ?_⟩
    · exact (ih.1 name hname).imp fun _ => .imp_left (List.mem_cons_of_mem text)
    · exact fun parent n d hd => (ih.2 parent n d hd).mono (List.subset_cons_self ..)
  | message hopen hinner hapart _ ih =>
    obtain ⟨hfields, hnested⟩ := spelledBy_of_isBody hinner
    refine ⟨fun name hname => ?_, fun parent n => List.forall_mem_cons.2 ⟨?_, ?_⟩⟩
    · exact (ih.1 name hname).imp fun _ => .imp_left (rest_subset_block _ _ _ ·)
    · exact (spelledBy_message hopen hfields hapart parent _).mono (List.subset_append_left ..)
    · refine List.forall_mem_append.2 ⟨fun d hd => ?_, fun d hd => ?_⟩
      · exact (hnested (some n) _ d hd).mono (inner_subset_block ..)
      · exact (ih.2 parent _ d hd).mono (rest_subset_block ..)

/-- Nothing in a document that is read is resolved. -/
theorem Document.asDeclared {lines : List Line} {d : Document}
    (h : Document.ofLines lines = .ok d) :
    ∀ e ∈ d.toSchema.declarations, ∀ f ∈ e.fields, f.AsDeclared := by
  obtain ⟨packages, hfile, -⟩ := Document.ofLines_eq_ok_iff.1 h
  intro e he f hf
  obtain ⟨text, -, hfield⟩ := ((spelledBy_of_isFile hfile).2 none 0 e he).fields f hf
  exact hfield.asDeclared

/-! ### Schemas -/

theorem Schema.ofLines_eq_ok_iff_document {lines : List Line} {s : Schema} :
    Schema.ofLines lines = .ok s ↔ ∃ d, Document.ofLines lines = .ok d ∧ d.toSchema = s := by
  rw [ofLines_eq_toSchema]
  cases Document.ofLines lines with
  | error problem => simp [Except.map]
  | ok d => simp [Except.map]

/-- **Lines hold a schema exactly if the grammar derives them**, and it is the tree of what is
derived. -/
theorem Schema.ofLines_iff_derives {lines : List Line} {s : Schema} :
    Schema.ofLines lines = .ok s ↔
      ∃ d : Document, Derives (lines.map (·.text)) d ∧ d.IsTree s := by
  simp only [ofLines_eq_ok_iff_document, Document.ofLines_eq_ok_iff, Document.isTree_iff]

end SwiftWrap
