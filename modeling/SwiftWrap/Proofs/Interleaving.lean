import SwiftWrap.Proofs.Concatenation
import Mathlib.Logic.Relation

/-! Lines on the other side of a block.

A block that stands beside a field can stand on its other side: a message keeps its fields and its
nested blocks apart, and each in their order. So a field can go past every nested block that the
grammar derives (`Shift.of_field`). At file scope it is the same with a message and the
line of the package, and with the lines that have no meaning.

The lines of a block are read the same in whatever they stand (`Draft.Runs.inside_message`). All
that a block does to a reader is to hand one declaration to what is around it, and the line beside
it only changes what a declaration does not (`Draft.runs_shift`). Nothing is read differently
where lines and blocks have changed places any number of times (`Schema.ofLines_shifts`). -/
namespace SwiftWrap
open Spelling Grammar

/-! ### Lines and blocks -/

/-- A line that neither opens nor closes a block, such as that of a field or of a package. -/
def IsPlain (text : String) : Prop := ∀ blocks, blocksAfter blocks text = blocks

/-- Lines that close every block that they open, and no other. -/
inductive IsClosed : List String → Prop where
  | nil : IsClosed []
  | plain {text : String} {rest : List String} (h : IsPlain text) (hrest : IsClosed rest) :
      IsClosed (text :: rest)
  | block {kind : Kind} {text name : String} {inner rest : List String}
      (hopen : IsBlock kind text name) (hinner : IsClosed inner) (hrest : IsClosed rest) :
      IsClosed (text :: inner ++ "\x7d" :: rest)

/-- The lines of one block, from the line that opens it to the line that closes it. -/
inductive IsWhole : List String → Prop where
  | intro {kind : Kind} {text name : String} {inner : List String}
      (hopen : IsBlock kind text name) (hinner : IsClosed inner) :
      IsWhole (text :: inner ++ ["\x7d"])

/-- A plain line in front of a block takes its place behind the block. -/
inductive Shift : List String → List String → Prop where
  | intro (before after : List String) {block : List String} {text : String} (h : IsPlain text)
      (hblock : IsWhole block) :
      Shift (before ++ (text :: block) ++ after) (before ++ (block ++ [text]) ++ after)

namespace IsPlain

theorem of_field {text : String} {f : Field} (h : IsField text f) : IsPlain text :=
  fun _ => blocksAfter_of_semicolon h.ends

theorem of_item {text : String} {i : Item} (h : IsItem text i) : IsPlain text :=
  fun _ => blocksAfter_of_semicolon h.ends

theorem of_package {text name : String} (h : IsPackage text name) : IsPlain text := by
  obtain ⟨rest, hrest⟩ := h.starts
  exact fun _ => blocksAfter_of_start hrest (by decide)

theorem of_ignored {text : String} (h : IsIgnored text) : IsPlain text := by
  intro blocks
  rcases h with ⟨rest, hrest⟩ | ⟨rest, hrest⟩
  · exact blocksAfter_of_start hrest.symm (by decide)
  · exact blocksAfter_of_start hrest.symm (by decide)

theorem not_block {text name : String} {kind : Kind} (h : IsPlain text) :
    ¬IsBlock kind text name := fun hblock =>
  absurd ((blocksAfter_of_isBlock hblock).symm.trans (h [])) (List.cons_ne_nil _ _)

theorem ne_close {text : String} (h : IsPlain text) : text ≠ "\x7d" := by
  rintro rfl
  exact absurd (h [(.message, "")]) (List.cons_ne_nil _ _).symm

end IsPlain

theorem IsClosed.of_items {texts : List String} {items : List Item}
    (h : List.Forall₂ IsItem texts items) : IsClosed texts := by
  induction h with
  | nil => exact .nil
  | cons hitem _ ih => exact .plain (.of_item hitem) ih

/-- The lines inside a message close what they open. -/
theorem Grammar.IsBody.isClosed {texts : List String} {fields : List Field} {nested : Forest}
    (h : IsBody texts fields nested) : IsClosed texts := by
  induction h with
  | nil => exact .nil
  | field hfield _ ih => exact .plain (.of_field hfield) ih
  | enumeration hopen hitems _ _ ih => exact .block hopen (.of_items hitems) ih
  | message hopen _ _ _ ihinner ih => exact .block hopen ihinner ih

/-- A message that the grammar derives is a whole block. -/
theorem IsWhole.of_message {text name : String} {inner : List String} {fields : List Field}
    {nested : Forest} (hopen : IsBlock .message text name) (hinner : IsBody inner fields nested) :
    IsWhole (text :: inner ++ ["\x7d"]) := .intro hopen hinner.isClosed

/-- Lines that hold nothing are none. -/
theorem Grammar.IsBody.eq_nil {texts : List String} (h : IsBody texts [] .nil) : texts = [] := by
  cases h
  rfl

/-- Lines that hold one declaration, and no field beside it, are a whole block. -/
theorem Grammar.IsBody.isWhole {block : List String} {nested : Forest} (h : IsBody block [] nested)
    (hone : nested.numbers 0 = [0]) : IsWhole block := by
  have hlast {rest : Forest} {n : Nat} (hrest : rest.numbers n = []) : rest = .nil := by
    cases rest with
    | nil => rfl
    | message | enumeration => cases hrest
  cases h with
  | nil => cases hone
  | enumeration hopen hitems _ hrest =>
    obtain rfl := hlast (List.cons.inj hone).2
    obtain rfl := hrest.eq_nil
    exact .intro hopen (.of_items hitems)
  | message hopen hinner _ hrest =>
    obtain rfl := hlast (List.cons.inj hone).2
    obtain rfl := hrest.eq_nil
    exact .of_message hopen hinner

/-- **A field can go past every nested block that the grammar derives**, a message or an enum. -/
theorem Shift.of_field {text : String} {f : Field} {block : List String} {nested : Forest}
    (hfield : IsField text f) (hblock : IsBody block [] nested) (hone : nested.numbers 0 = [0])
    (before after : List String) :
    Shift (before ++ (text :: block) ++ after) (before ++ (block ++ [text]) ++ after) :=
  .intro before after (.of_field hfield) (hblock.isWhole hone)

namespace Draft

/-! ### What closed lines add -/

theorem Steps.closeEnum_eq {package : Option String} {roots : Forest} {block : DraftEnum}
    {owner : DraftMessage} {outer : List DraftMessage} {r : Draft}
    (h : Steps ⟨package, roots, .enumeration block owner outer⟩ "\x7d" r) :
    r = ⟨package, roots, .message
      (owner.nest (.enumeration block.name block.items .nil)) outer⟩ := by
  cases h with
  | closeEnum => rfl
  | item hitem _ => exact absurd rfl (IsPlain.of_item hitem).ne_close

theorem Steps.closeMessage_eq {package : Option String} {roots : Forest} {block : DraftMessage}
    {outer : List DraftMessage} {r : Draft}
    (h : Steps ⟨package, roots, .message block outer⟩ "\x7d" r) :
    r = Draft.closeMessage ⟨package, roots, .file⟩ block outer := by
  cases h with
  | closeMessage => rfl
  | openEnum hopen => exact absurd hopen.ends (by decide)
  | openMessage hopen => exact absurd hopen.ends (by decide)
  | field hfield _ => exact absurd rfl (IsPlain.of_field hfield).ne_close

/-- Closed lines in an enum add the same items to it whatever is around it. -/
theorem Runs.inside_enum {texts : List String} (h : IsClosed texts) {package : Option String}
    {roots : Forest} {block : DraftEnum} {owner : DraftMessage} {outer : List DraftMessage}
    {r : Draft} (hrun : Runs ⟨package, roots, .enumeration block owner outer⟩ texts r) :
    ∃ block', r = ⟨package, roots, .enumeration block' owner outer⟩ ∧
      ∀ package roots owner outer, Runs ⟨package, roots, .enumeration block owner outer⟩ texts
        ⟨package, roots, .enumeration block' owner outer⟩ := by
  induction h generalizing block with
  | nil =>
    cases hrun
    exact ⟨block, rfl, fun _ _ _ _ => .nil⟩
  | plain hplain _ ih =>
    cases hrun with
    | cons hstep hrest =>
      cases hstep with
      | closeEnum => exact absurd rfl hplain.ne_close
      | item hitem hnew =>
        obtain ⟨block', hr, hall⟩ := ih hrest
        exact ⟨block', hr, fun p roots owner outer =>
          .cons (.item hitem hnew) (hall p roots owner outer)⟩
  | block hopen =>
    cases hrun with
    | cons hstep _ =>
      cases hstep with
      | closeEnum => exact absurd hopen.ends (by decide)
      | item hitem _ => exact absurd hopen (IsPlain.of_item hitem).not_block

/-- Closed lines in a message add the same to it whatever is around it. -/
theorem Runs.inside_message {texts : List String} (h : IsClosed texts) {package : Option String}
    {roots : Forest} {block : DraftMessage} {outer : List DraftMessage} {r : Draft}
    (hrun : Runs ⟨package, roots, .message block outer⟩ texts r) :
    ∃ block', r = ⟨package, roots, .message block' outer⟩ ∧
      ∀ package roots outer, Runs ⟨package, roots, .message block outer⟩ texts
        ⟨package, roots, .message block' outer⟩ := by
  induction h generalizing block outer r with
  | nil =>
    cases hrun
    exact ⟨block, rfl, fun _ _ _ => .nil⟩
  | plain hplain _ ih =>
    cases hrun with
    | cons hstep hrest =>
      cases hstep with
      | closeMessage => exact absurd rfl hplain.ne_close
      | openEnum hopen => exact absurd hopen hplain.not_block
      | openMessage hopen => exact absurd hopen hplain.not_block
      | field hfield hnew =>
        obtain ⟨block', hr, hall⟩ := ih hrest
        exact ⟨block', hr, fun p roots outer => .cons (.field hfield hnew) (hall p roots outer)⟩
  | block hopen hinner _ ihinner ih =>
    cases hrun with
    | cons hstep hrun =>
      obtain ⟨mid, hfirst, hsecond⟩ := hrun.split
      cases hstep with
      | closeMessage => exact absurd hopen.ends (by decide)
      | field hfield _ => exact absurd hopen (IsPlain.of_field hfield).not_block
      | openEnum hopen =>
        obtain ⟨inside, rfl, hinside⟩ := hfirst.inside_enum hinner
        cases hsecond with
        | cons hclose hrest =>
          obtain rfl := hclose.closeEnum_eq
          obtain ⟨block', hr, hall⟩ := ih hrest
          exact ⟨block', hr, fun p roots outer => (Runs.cons (.openEnum hopen)
            (hinside p roots _ outer)).append (.cons .closeEnum (hall p roots outer))⟩
      | openMessage hopen =>
        obtain ⟨inside, rfl, hinside⟩ := ihinner hfirst
        cases hsecond with
        | cons hclose hrest =>
          obtain rfl := hclose.closeMessage_eq
          obtain ⟨block', hr, hall⟩ := ih hrest
          exact ⟨block', hr, fun p roots outer => (Runs.cons (.openMessage hopen)
            (hinside p roots _)).append (.cons .closeMessage (hall p roots outer))⟩

/-! ### What a block adds -/

/-- The reader with one more finished block, at file scope or in the innermost message. In an enum
there is no place for it. -/
def hand (r : Draft) (f : Forest) : Draft :=
  match r.blocks with
  | .file => { r with roots := r.roots ++ f }
  | .message block outer => { r with blocks := .message (block.nest f) outer }
  | .enumeration .. => r

/-- All that a block does is to hand over a declaration, which does not depend on what else there
is where the block stands. -/
theorem Runs.whole {block : List String} (h : IsWhole block) {r r' : Draft}
    (hrun : r.Runs block r') : ∃ f, r' = r.hand f ∧
      ∀ t : Draft, t.blocks.stack = r.blocks.stack → t.Runs block (t.hand f) := by
  obtain ⟨package, roots, blocks⟩ := r
  cases h with
  | intro hopen hinner =>
    cases hrun with
    | cons hstep hrun =>
      obtain ⟨mid, hfirst, hsecond⟩ := hrun.split
      cases hsecond with
      | cons hclose hnil =>
        cases hnil
        cases hstep with
        | ignored hignored => exact absurd hopen (IsPlain.of_ignored hignored).not_block
        | package hpackage => exact absurd hopen (IsPlain.of_package hpackage).not_block
        | closeMessage => exact absurd hopen.ends (by decide)
        | closeEnum => exact absurd hopen.ends (by decide)
        | field hfield _ => exact absurd hopen (IsPlain.of_field hfield).not_block
        | item hitem _ => exact absurd hopen (IsPlain.of_item hitem).not_block
        | openRoot hopen =>
          obtain ⟨inside, rfl, hinside⟩ := hfirst.inside_message hinner
          obtain rfl := hclose.closeMessage_eq
          refine ⟨inside.finish, rfl, fun t ht => ?_⟩
          obtain ⟨p, roots', blocks⟩ := t
          obtain rfl := stack_eq_nil_iff.1 ht
          exact .cons (.openRoot hopen) ((hinside p roots' []).append (.cons .closeMessage .nil))
        | openEnum hopen =>
          obtain ⟨inside, rfl, hinside⟩ := hfirst.inside_enum hinner
          obtain rfl := hclose.closeEnum_eq
          refine ⟨.enumeration inside.name inside.items .nil, rfl, fun t ht => ?_⟩
          obtain ⟨p, roots', _ | ⟨owner, outer⟩ | _⟩ := t
          · cases ht
          · exact .cons (.openEnum hopen)
              ((hinside p roots' owner outer).append (.cons .closeEnum .nil))
          · cases ht
        | openMessage hopen =>
          obtain ⟨inside, rfl, hinside⟩ := hfirst.inside_message hinner
          obtain rfl := hclose.closeMessage_eq
          refine ⟨inside.finish, rfl, fun t ht => ?_⟩
          obtain ⟨p, roots', _ | ⟨owner, outer⟩ | _⟩ := t
          · cases ht
          · exact .cons (.openMessage hopen)
              ((hinside p roots' (owner :: outer)).append (.cons .closeMessage .nil))
          · cases ht

/-- A plain line does the same before and after a declaration is handed over. -/
theorem steps_hand_iff {text : String} (h : IsPlain text) {r t : Draft} {f : Forest} :
    (r.hand f).Steps text t ↔ ∃ next, r.Steps text next ∧ t = next.hand f := by
  obtain ⟨package, roots, blocks⟩ := r
  constructor
  · intro hstep
    cases blocks with
    | file =>
      cases hstep with
      | ignored hignored => exact ⟨_, .ignored hignored, rfl⟩
      | package hpackage => exact ⟨_, .package hpackage, rfl⟩
      | openRoot hopen => exact absurd hopen h.not_block
    | message block outer =>
      cases hstep with
      | closeMessage => exact absurd rfl h.ne_close
      | openEnum hopen => exact absurd hopen h.not_block
      | openMessage hopen => exact absurd hopen h.not_block
      | field hfield hnew => exact ⟨_, .field hfield hnew, rfl⟩
    | enumeration block owner outer =>
      cases hstep with
      | closeEnum => exact absurd rfl h.ne_close
      | item hitem hnew => exact ⟨_, .item hitem hnew, rfl⟩
  · intro hx
    obtain ⟨next, hstep, rfl⟩ := hx
    cases hstep with
    | ignored hignored => exact .ignored hignored
    | package hpackage => exact .package hpackage
    | openRoot hopen => exact absurd hopen h.not_block
    | closeMessage => exact absurd rfl h.ne_close
    | openEnum hopen => exact absurd hopen h.not_block
    | openMessage hopen => exact absurd hopen h.not_block
    | field hfield hnew => exact .field hfield hnew
    | closeEnum => exact absurd rfl h.ne_close
    | item hitem hnew => exact .item hitem hnew

theorem Steps.stack_of_plain {r r' : Draft} {text : String} (h : r.Steps text r')
    (hplain : IsPlain text) : r'.blocks.stack = r.blocks.stack := by
  rw [h.stack, hplain]

/-- **A plain line and a block can change places.** -/
theorem runs_swap {block : List String} {text : String} (h : IsPlain text) (hblock : IsWhole block)
    {r r' : Draft} : r.Runs (text :: block) r' ↔ r.Runs (block ++ [text]) r' := by
  constructor
  · intro hrun
    cases hrun with
    | cons hstep hrest =>
      obtain ⟨f, rfl, hall⟩ := hrest.whole hblock
      have hfirst := hall r (hstep.stack_of_plain h).symm
      exact hfirst.append (.cons ((steps_hand_iff h).2 ⟨_, hstep, rfl⟩) .nil)
  · intro hrun
    obtain ⟨mid, hfirst, hlast⟩ := hrun.split
    obtain ⟨f, rfl, hall⟩ := hfirst.whole hblock
    cases hlast with
    | cons hstep hnil =>
      cases hnil
      obtain ⟨next, hfront, rfl⟩ := (steps_hand_iff h).1 hstep
      exact .cons hfront (hall next (hfront.stack_of_plain h))

theorem runs_append_iff {r r'' : Draft} {first second : List String} :
    r.Runs (first ++ second) r'' ↔ ∃ r', r.Runs first r' ∧ r'.Runs second r'' :=
  ⟨Runs.split, fun ⟨_, hfirst, hsecond⟩ => hfirst.append hsecond⟩

theorem runs_shift {texts texts' : List String} (h : Shift texts texts') {r r' : Draft} :
    r.Runs texts r' ↔ r.Runs texts' r' := by
  cases h with
  | intro before after hplain hblock =>
    rw [runs_append_iff, runs_append_iff]
    refine exists_congr fun _ => and_congr_left fun _ => ?_
    rw [runs_append_iff, runs_append_iff]
    exact exists_congr fun _ => and_congr_right fun _ => runs_swap hplain hblock

/-- Lines that have changed places with blocks any number of times. -/
theorem runs_shifts {texts texts' : List String} (h : Relation.EqvGen Shift texts texts')
    {r r' : Draft} : r.Runs texts r' ↔ r.Runs texts' r' := by
  induction h with
  | rel _ _ hshift => exact runs_shift hshift
  | refl _ => exact .rfl
  | symm _ _ _ ih => exact ih.symm
  | trans _ _ _ _ _ ih ih' => exact ih.trans ih'

end Draft

/-! ### The theorem -/

/-- **Lines and blocks can change places.** What lines hold stays the same, with all numbers, where
lines that neither open nor close a block go from one side of a whole block to the other, any
number of times: fields in a message, and at file scope the lines of the package, of options and
of the language version. -/
theorem Schema.ofLines_shifts {lines lines' : List Line} {s : Schema}
    (h : Relation.EqvGen Shift (lines.map (·.text)) (lines'.map (·.text))) :
    ofLines lines = .ok s ↔ ofLines lines' = .ok s := by
  simp only [ofLines_eq_ok_iff_document, Document.ofLines_eq_ok_iff_runs, Draft.runs_shifts h]

/-- A field in front of the enum that it holds, in a message behind its package. -/
def packagedFieldLines : List Line :=
  [⟨"package p;", 1⟩, ⟨"message M \x7b", 2⟩, ⟨"optional E e = 1;", 3⟩, ⟨"enum E \x7b", 4⟩,
    ⟨"X = 0;", 5⟩, ⟨"\x7d", 6⟩, ⟨"\x7d", 7⟩]

/-- The same, with the field behind the enum, and the package behind the message. -/
def fieldPackagedLines : List Line :=
  [⟨"message M \x7b", 1⟩, ⟨"enum E \x7b", 2⟩, ⟨"X = 0;", 3⟩, ⟨"\x7d", 4⟩,
    ⟨"optional E e = 1;", 5⟩, ⟨"\x7d", 6⟩, ⟨"package p;", 7⟩]

/-- What both hold. -/
def Document.packagedField : Document where
  package := some "p"
  roots := .message "M" [.declare (some .optional) "E" "e" 1 none]
    (.enumeration "E" [⟨"X", 0⟩] .nil) .nil

theorem Schema.ofLines_shifts_packaged :
    ofLines packagedFieldLines = .ok Document.packagedField.toSchema ∧
    ofLines fieldPackagedLines = .ok Document.packagedField.toSchema := by
  have hmessage : IsBlock .message "message M \x7b" "M" := blockName?_eq_some_iff.1 (by rfl)
  have henum : IsBlock .enumeration "enum E \x7b" "E" := blockName?_eq_some_iff.1 (by rfl)
  have hpackage : IsPackage "package p;" "p" := packageName?_eq_some_iff.1 (by rfl)
  have hfield : IsField "optional E e = 1;" (.declare (some .optional) "E" "e" 1 none) :=
    field?_eq_some_iff.1 (by rfl)
  have hitems : List.Forall₂ IsItem ["X = 0;"] [⟨"X", 0⟩] :=
    .cons (item?_eq_some_iff.1 (by rfl)) .nil
  have hnested := IsBody.enumeration henum hitems (List.pairwise_singleton ..) .nil
  have hbody := IsBody.enumeration henum hitems (List.pairwise_singleton ..) (.field hfield .nil)
  have hfirst := Shift.of_field hfield hnested rfl ["package p;", "message M \x7b"] ["\x7d"]
  have hsecond := Shift.intro [] [] (.of_package hpackage) (.of_message hmessage hbody)
  have hshifts : Relation.EqvGen Shift (packagedFieldLines.map (·.text))
      (fieldPackagedLines.map (·.text)) := .trans _ _ _ (.rel _ _ hfirst) (.rel _ _ hsecond)
  have hread : ofLines packagedFieldLines = .ok Document.packagedField.toSchema := by rfl
  exact ⟨hread, (ofLines_shifts hshifts).1 hread⟩

end SwiftWrap
