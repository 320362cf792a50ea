import SwiftWrap.Proofs.Excerpt
import SwiftWrap.Proofs.Reordering
import SwiftWrap.Proofs.Session
import Mathlib.Data.List.Perm.Basic

/-! The items of an enum in another order.

Lines inside an enum can be read in every order or in none: an item has only to differ from the
others. What follows is then read from the same blocks, but for the order of items in them
(`Draft.Alike`).

Nothing but generated code looks at items, and it sorts them by their indices, of which no two are
the same. So a schema and the same schema with its items sorted (`Schema.sorted`) are linked
alike (`Schema.linked_sorted`) and give the same code (`Schema.code_sorted`). Sorted, two orders of
the same items are one, so the order in the source does not show
(`Schema.linkedOfLines_itemsMoved`). -/
namespace SwiftWrap
open Spelling Grammar

/-! ### Lines -/

/-- The lines between two places inside one enum stand in another order. -/
inductive ItemsMoved : List String → List String → Prop where
  | intro (before after : List String) {inner inner' : List String} {name : String}
      {outer : List (Kind × String)} (hopen : openBlocks before = (.enumeration, name) :: outer)
      (hinner : "\x7d" ∉ inner) (hperm : inner.Perm inner') :
      ItemsMoved (before ++ inner ++ after) (before ++ inner' ++ after)

theorem ItemsMoved.symm {texts texts' : List String} (h : ItemsMoved texts texts') :
    ItemsMoved texts' texts := by
  cases h with
  | intro before after hopen hinner hperm =>
    exact .intro before after hopen (fun hmem => hinner (hperm.mem_iff.2 hmem)) hperm.symm

/-! ### Readers that differ in the order of items -/

/-- What keeps items apart does not depend on their order. -/
theorem Grammar.Apart.perm {items items' : List Item} (h : Apart Item.name Item.index items)
    (hperm : items.Perm items') : Apart Item.name Item.index items' :=
  List.Pairwise.perm h hperm fun hne => ⟨hne.1.symm, hne.2.symm⟩

/-- The same declarations, with the items of enums in another order. -/
inductive Forest.Alike : Forest → Forest → Prop where
  | nil : Alike .nil .nil
  | message (name : String) (fields : List Field) {nested nested' rest rest' : Forest}
      (hnested : Alike nested nested') (hrest : Alike rest rest') :
      Alike (.message name fields nested rest) (.message name fields nested' rest')
  | enumeration (name : String) {items items' : List Item} {rest rest' : Forest}
      (hitems : items.Perm items') (hrest : Alike rest rest') :
      Alike (.enumeration name items rest) (.enumeration name items' rest')

namespace Forest.Alike
variable {f f' g g' : Forest}

theorem refl (f : Forest) : f.Alike f := by
  induction f with
  | nil => exact .nil
  | message name fields nested rest ihnested ihrest => exact .message name fields ihnested ihrest
  | enumeration name items rest ih => exact .enumeration name (.refl items) ih

theorem append (h : f.Alike f') (h' : g.Alike g') : (f ++ g).Alike (f' ++ g') := by
  induction h with
  | nil => exact h'
  | message name fields hnested _ _ ih => exact .message name fields hnested ih
  | enumeration name hitems _ ih => exact .enumeration name hitems ih

/-- Forests that differ in the order of items have the same declarations. -/
theorem size_eq (h : f.Alike f') : f'.size = f.size := by
  induction h with
  | nil => rfl
  | message name fields _ _ ihnested ihrest => rw [size, size, ihnested, ihrest]
  | enumeration name _ _ ih => rw [size, size, ih]

/-- So they are numbered the same. -/
theorem numbers_eq (h : f.Alike f') (n : Nat) : f'.numbers n = f.numbers n := by
  induction h generalizing n with
  | nil => rfl
  | message name fields hnested _ _ ih => rw [numbers, numbers, hnested.size_eq, ih]
  | enumeration name _ _ ih => rw [numbers, numbers, ih]

end Forest.Alike

/-- The same message, with the items of the enums in it in another order. -/
inductive DraftMessage.Alike : DraftMessage → DraftMessage → Prop where
  | intro (name : String) (fields : List Field) {nested nested' : Forest}
      (h : nested.Alike nested') : Alike ⟨name, fields, nested⟩ ⟨name, fields, nested'⟩

/-- The same lines so far, but for the order of items. -/
inductive Draft.Alike : Draft → Draft → Prop where
  | file {package : Option String} {roots roots' : Forest} (hroots : roots.Alike roots') :
      Alike ⟨package, roots, .file⟩ ⟨package, roots', .file⟩
  | message {package : Option String} {roots roots' : Forest} {block block' : DraftMessage}
      {outer outer' : List DraftMessage} (hroots : roots.Alike roots') (hblock : block.Alike block')
      (houter : List.Forall₂ DraftMessage.Alike outer outer') :
      Alike ⟨package, roots, .message block outer⟩ ⟨package, roots', .message block' outer'⟩
  | enumeration {package : Option String} {roots roots' : Forest} (name : String)
      {items items' : List Item} {owner owner' : DraftMessage} {outer outer' : List DraftMessage}
      (hroots : roots.Alike roots') (hitems : items.Perm items') (howner : owner.Alike owner')
      (houter : List.Forall₂ DraftMessage.Alike outer outer') :
      Alike ⟨package, roots, .enumeration ⟨name, items⟩ owner outer⟩
        ⟨package, roots', .enumeration ⟨name, items'⟩ owner' outer'⟩

theorem DraftMessage.Alike.refl (block : DraftMessage) : block.Alike block := .intro _ _ (.refl _)

theorem alike_all (outer : List DraftMessage) : List.Forall₂ DraftMessage.Alike outer outer :=
  List.forall₂_same.2 fun block _ => .refl block

theorem DraftMessage.Alike.nest {owner owner' : DraftMessage} (h : owner.Alike owner')
    {f f' : Forest} (hf : f.Alike f') : (owner.nest f).Alike (owner'.nest f') := by
  cases h with
  | intro name fields h => exact .intro name fields (h.append hf)

theorem DraftMessage.Alike.finish {block block' : DraftMessage} (h : block.Alike block') :
    block.finish.Alike block'.finish := by
  cases h with
  | intro name fields h => exact .message name fields h .nil

namespace Draft

/-- What a line does to one reader it does to the other. -/
theorem Alike.steps {r r' q : Draft} {text : String} (h : r.Alike r') (hstep : r.Steps text q) :
    ∃ q', r'.Steps text q' ∧ q.Alike q' := by
  cases hstep with
  | ignored hignored =>
    cases h with
    | file hroots => exact ⟨_, .ignored hignored, .file hroots⟩
  | package hpackage =>
    cases h with
    | file hroots => exact ⟨_, .package hpackage, .file hroots⟩
  | openRoot hopen =>
    cases h with
    | file hroots =>
      exact ⟨_, .openRoot hopen, .message hroots (.refl _) .nil⟩
  | closeMessage =>
    cases h with
    | message hroots hblock houter =>
      refine ⟨_, .closeMessage, ?_⟩
      cases houter with
      | nil => exact .file (hroots.append hblock.finish)
      | cons howner houter => exact .message hroots (howner.nest hblock.finish) houter
  | openEnum hopen =>
    cases h with
    | message hroots hblock houter =>
      exact ⟨_, .openEnum hopen, .enumeration _ hroots .nil hblock houter⟩
  | openMessage hopen =>
    cases h with
    | message hroots hblock houter =>
      exact ⟨_, .openMessage hopen, .message hroots (.refl _) (.cons hblock houter)⟩
  | @field _ _ _ _ _ f hfield hnew =>
    cases h with
    | message hroots hblock houter =>
      cases hblock with
      | intro name fields hnested =>
        exact ⟨_, .field hfield hnew, .message hroots (.intro name _ hnested) houter⟩
  | closeEnum =>
    cases h with
    | enumeration name hroots hitems howner houter =>
      exact ⟨_, .closeEnum,
        .message hroots (howner.nest (.enumeration name hitems .nil)) houter⟩
  | @item _ _ _ _ _ _ i hitem hnew =>
    cases h with
    | enumeration name hroots hitems howner houter =>
      exact ⟨_, .item hitem fun j hj => hnew j (hitems.mem_iff.2 hj),
        .enumeration name hroots (hitems.append_right [i]) howner houter⟩

/-- Readers that are alike stay alike along a run. -/
theorem Alike.runs {r r' q : Draft} {texts : List String} (h : r.Alike r')
    (hrun : r.Runs texts q) : ∃ q', r'.Runs texts q' ∧ q.Alike q' := by
  induction hrun generalizing r' with
  | nil => exact ⟨r', .nil, h⟩
  | cons hstep _ ih =>
    obtain ⟨next, hstep', hnext⟩ := h.steps hstep
    obtain ⟨q', hrest, hq⟩ := ih hnext
    exact ⟨q', .cons hstep' hrest, hq⟩

/-- The items of an enum that is open have different names and different indices. -/
def ItemsApart (r : Draft) : Prop :=
  match r.blocks with
  | .enumeration block _ _ => Apart Item.name Item.index block.items
  | _ => True

theorem Steps.itemsApart {r q : Draft} {text : String} (h : r.Steps text q) (hr : r.ItemsApart) :
    q.ItemsApart := by
  cases h with
  | openEnum _ => exact .nil
  | item _ hnew => exact apart_concat hr hnew
  | @closeMessage _ _ _ outer => cases outer <;> trivial
  | _ => trivial

theorem Runs.itemsApart {r q : Draft} {texts : List String} (h : r.Runs texts q)
    (hr : r.ItemsApart) : q.ItemsApart := by
  induction h with
  | nil => exact hr
  | cons hstep _ ih => exact ih (hstep.itemsApart hr)

section Enum
variable {package : Option String} {roots : Forest} {block : DraftEnum} {owner : DraftMessage}
  {outer : List DraftMessage} {q : Draft}

/-- Inside an enum every line but the closing one is an item. -/
theorem Runs.items_of_inside {texts : List String}
    (h : Runs ⟨package, roots, .enumeration block owner outer⟩ texts q) (hinside : "\x7d" ∉ texts)
    (hblock : Apart Item.name Item.index block.items) : ∃ items, List.Forall₂ IsItem texts items ∧
      Apart Item.name Item.index (block.items ++ items) ∧
      q = ⟨package, roots, .enumeration ⟨block.name, block.items ++ items⟩ owner outer⟩ := by
  induction texts generalizing block with
  | nil =>
    cases h
    exact ⟨[], .nil, by rwa [List.append_nil], by rw [List.append_nil]⟩
  | cons text rest ih =>
    obtain ⟨hne, hrest⟩ := not_or.1 (mt List.mem_cons.2 hinside)
    cases h with
    | cons hstep hrun =>
      cases hstep with
      | closeEnum => exact absurd rfl hne
      | @item _ _ _ _ _ _ i hitem hnew =>
        obtain ⟨items, hitems, hapart, rfl⟩ := ih hrun hrest (apart_concat hblock hnew)
        rw [List.append_assoc] at hapart
        refine ⟨i :: items, .cons hitem hitems, hapart, ?_⟩
        rw [List.append_assoc]
        rfl

/-- The lines inside an enum are read in every order or in none. -/
theorem Runs.of_perm {inner inner' : List String}
    (h : Runs ⟨package, roots, .enumeration block owner outer⟩ inner q) (hinside : "\x7d" ∉ inner)
    (hblock : Apart Item.name Item.index block.items) (hperm : inner.Perm inner') :
    ∃ q', Runs ⟨package, roots, .enumeration block owner outer⟩ inner' q' ∧ q.Alike q' := by
  obtain ⟨items, hitems, hapart, rfl⟩ := h.items_of_inside hinside hblock
  obtain ⟨items', hitems', hsame⟩ := List.perm_comp_forall₂ hperm.symm hitems
  have hall : (block.items ++ items).Perm (block.items ++ items') := hsame.symm.append_left _
  exact ⟨_, runs_items hitems' package roots block owner outer (hapart.perm hall),
    .enumeration _ (.refl roots) hall (.refl owner) (alike_all outer)⟩

end Enum

/-- Where lines inside an enum are in another order, the reader comes to the same end but for the
order of items. -/
theorem Runs.of_itemsMoved {texts texts' : List String} (h : ItemsMoved texts texts') {r : Draft}
    (hrun : start.Runs texts r) : ∃ r', start.Runs texts' r' ∧ r.Alike r' := by
  cases h with
  | intro before after hopen hinner hperm =>
    obtain ⟨mid, hfront, hafter⟩ := hrun.split
    obtain ⟨⟨package, roots, blocks⟩, hbefore, hinside⟩ := hfront.split
    have hapart := hbefore.itemsApart trivial
    have hstack := hbefore.openBlocks.trans hopen
    cases blocks with
    | file => cases hstack
    | message block outer => cases hstack
    | enumeration block owner outer =>
      obtain ⟨mid', hinside', hmid⟩ := hinside.of_perm hinner hapart hperm
      obtain ⟨r', hafter', hr⟩ := hmid.runs hafter
      exact ⟨r', (hbefore.append hinside').append hafter', hr⟩

end Draft

/-! ### Items in order of their indices -/

namespace Swift

theorem byIndex_perm (items : List Item) : (byIndex items).Perm items := List.mergeSort_perm ..

/-- Cases are written in ascending order of their indices. -/
theorem pairwise_byIndex (items : List Item) : (byIndex items).Pairwise (·.index ≤ ·.index) := by
  have hsorted : (byIndex items).Pairwise fun a b => decide (a.index ≤ b.index) = true :=
    List.pairwise_mergeSort
      (fun a b c hab hbc => by simp only [decide_eq_true_eq] at *; omega)
      (fun a b => by simp only [Bool.or_eq_true, decide_eq_true_eq]; omega) items
  exact hsorted.imp fun h => of_decide_eq_true h

theorem byIndex_byIndex (items : List Item) : byIndex (byIndex items) = byIndex items :=
  List.mergeSort_of_pairwise ((pairwise_byIndex items).imp fun h => decide_eq_true h)

/-- Items with different indices are in strictly ascending order. -/
theorem ascending_byIndex {items : List Item} (h : Apart Item.name Item.index items) :
    (byIndex items).Pairwise (·.index < ·.index) := by
  have hapart : Apart Item.name Item.index (byIndex items) := h.perm (byIndex_perm items).symm
  exact (pairwise_byIndex items).imp₂ (fun _ _ hle hne => lt_of_le_of_ne hle hne.2) hapart

/-- There is one ascending order only. -/
theorem byIndex_eq_of_perm {items items' : List Item} (h : Apart Item.name Item.index items)
    (hperm : items.Perm items') : byIndex items' = byIndex items := by
  have hsame := ((byIndex_perm items').trans hperm.symm).trans (byIndex_perm items).symm
  exact hsame.eq_of_pairwise (fun a b _ _ hab hba => absurd hab (lt_asymm hba))
    (ascending_byIndex (h.perm hperm)) (ascending_byIndex h)

end Swift

/-- The body with the items of an enum in order of their indices. -/
def Body.sorted : Body → Body
  | message children fields => message children fields
  | enumeration items => enumeration (Swift.byIndex items)

/-- The declaration with the items of an enum in order of their indices. -/
def Declaration.sorted (d : Declaration) : Declaration := { d with body := d.body.sorted }

namespace Declaration

@[simp] theorem sorted_fields (d : Declaration) : d.sorted.fields = d.fields := by
  obtain ⟨_, _, body, _⟩ := d
  cases body <;> rfl

theorem keepsLinks_sorted : KeepsLinks sorted where
  name _ := rfl
  parent _ := rfl
  kind d := by
    obtain ⟨_, _, body, _⟩ := d
    cases body <;> rfl
  children d := by
    obtain ⟨_, _, body, _⟩ := d
    cases body <;> rfl

end Declaration

/-- Once the items are in order, it does not matter in which order they were. -/
theorem Forest.Alike.declarations_sorted {f g : Forest} (h : f.Alike g) {parent : Option Nat}
    {n : Nat} (hapart : ∀ d ∈ f.declarations parent n, Apart Item.name Item.index d.items) :
    (g.declarations parent n).map Declaration.sorted =
      (f.declarations parent n).map Declaration.sorted := by
  induction h generalizing parent n with
  | nil => rfl
  | message name fields hnested hrest ihnested ihrest =>
    obtain ⟨-, hothers⟩ := List.forall_mem_cons.1 hapart
    obtain ⟨hinner, houter⟩ := List.forall_mem_append.1 hothers
    simp only [declarations, List.map_cons, List.map_append, hnested.numbers_eq, hnested.size_eq,
      ihnested hinner, ihrest houter]
  | @enumeration name items items' _ _ hitems hrest ih =>
    obtain ⟨hown, houter⟩ := List.forall_mem_cons.1 hapart
    have hsame : Swift.byIndex items' = Swift.byIndex items :=
      Swift.byIndex_eq_of_perm hown hitems
    simp only [declarations, List.map_cons, ih houter, Declaration.sorted, Body.sorted, hsame]

namespace Schema

/-- The schema with the items of every enum in order of their indices. -/
def sorted (s : Schema) : Schema := s.changed Declaration.sorted

/-! ### Linking -/

/-- A change of one declaration before the items are sorted, or after it. -/
theorem modify_sorted {s : Schema} {id : Nat} {change : Declaration → Declaration}
    (h : ∀ d, change d.sorted = (change d).sorted) :
    s.sorted.modify id change = (s.modify id change).sorted := by
  refine congrArg (Schema.mk s.package s.roots) (List.ext_getElem? fun k => ?_)
  show ((s.declarations.map Declaration.sorted).modify id change)[k]? =
    ((s.declarations.modify id change).map Declaration.sorted)[k]?
  rw [List.getElem?_modify, List.getElem?_map, List.getElem?_map, List.getElem?_modify]
  cases s.declarations[k]? with
  | none => split <;> rfl
  | some d =>
    split
    · exact congrArg some (h d)
    · rfl

theorem pathOf_sorted (s : Schema) (id : Nat) : s.sorted.pathOf id = s.pathOf id :=
  s.viewAt_changed id "" fun _ => rfl

theorem assignNames_sorted (p : Prefixes) (s : Schema) (id : Nat) :
    s.sorted.assignNames p id = (s.assignNames p id).sorted := by
  have hchain : s.sorted.nameChain id = s.nameChain id :=
    s.nameChain_changed Declaration.keepsLinks_sorted id
  unfold assignNames
  rw [hchain, ← modify_sorted fun d => by rw [Declaration.keepsLinks_sorted.kind]; rfl]
  refine modify_congr fun d _ => ?_
  simp only [pathUnder_congr fun q _ => s.pathOf_sorted q]

theorem listed_sorted (s : Schema) : s.sorted.listed = s.listed :=
  s.listed_changed Declaration.keepsLinks_sorted

theorem withNames_sorted (s : Schema) (p : Prefixes) :
    s.sorted.withNames p = (s.withNames p).sorted := by
  have hfold (s : Schema) (ids : List Nat) :
      ids.foldl (assignNames p) s.sorted = (ids.foldl (assignNames p) s).sorted := by
    induction ids generalizing s with
    | nil => rfl
    | cons id rest ih => rw [List.foldl_cons, List.foldl_cons, assignNames_sorted, ih]
  unfold withNames
  rw [listed_sorted]
  exact hfold s s.listed

theorem linkAll_sorted (s : Schema) (ids : List Nat) :
    s.sorted.linkAll ids = ⟨(s.linkAll ids).schema.sorted, (s.linkAll ids).problem⟩ := by
  induction ids generalizing s with
  | nil => rfl
  | cons id rest ih =>
    have hfields : s.sorted.fieldsOf id = s.fieldsOf id :=
      s.viewAt_changed id [] Declaration.sorted_fields
    have hlink (fields : List Field) : s.sorted.linkFields id fields = s.linkFields id fields :=
      s.linkFields_changed Declaration.keepsLinks_sorted id fields
    rw [linkAll_cons, linkAll_cons, hfields, hlink]
    cases s.linkFields id (s.fieldsOf id) with
    | error problem => rfl
    | ok fields =>
      have hset : s.sorted.withFields id fields = (s.withFields id fields).sorted := by
        refine modify_sorted fun d => ?_
        obtain ⟨_, _, body, _⟩ := d
        cases body <;> rfl
      simp only [hset, ih]

/-- Linking does not look at items. -/
theorem linked_sorted (s : Schema) (p : Prefixes) :
    s.sorted.linked p = (s.linked p).map sorted := by
  have hlink : s.sorted.link p = ⟨(s.link p).schema.sorted, (s.link p).problem⟩ := by
    unfold link
    rw [withNames_sorted, linkAll_sorted, listed_sorted]
  unfold linked
  rw [hlink]
  cases s.link p with
  | mk t problem => cases problem <;> rfl

/-! ### Generated code -/

theorem sameIn_sorted (s : Schema) (f : Field) : f.SameIn s s.sorted := by
  refine Field.sameIn_of_target (fun target _ => s.pathOf_sorted target) (fun target _ => ?_)
    fun target _ suffix => ?_
  · exact s.viewAt_changed target "" fun _ => rfl
  · simp only [Swift.converterRef, pathOf_sorted]
    exact s.viewAt_changed target "" fun _ => rfl

/-- Generated code does not show the order of items in the source. -/
theorem code_sorted (s : Schema) : Swift.code s.sorted = Swift.code s := by
  have hnode (id : Nat) (d : Declaration) (nested : Script) :
      Swift.declarationScript s.sorted id d.sorted nested =
        Swift.declarationScript s id d nested := by
    have herror : Swift.errorRef s.sorted id = Swift.errorRef s id := by
      rw [Swift.errorRef, sorted, s.enclosing_changed Declaration.keepsLinks_sorted, Swift.errorRef]
      exact s.viewAt_changed _ "" fun _ => rfl
    rw [Swift.declarationScript_congr (fun f _ => s.sameIn_sorted f) herror]
    obtain ⟨name, parent, body, names⟩ := d
    cases body with
    | message children fields => rfl
    | enumeration items =>
      have hcases : Swift.cases (Swift.byIndex items) = Swift.cases items := by
        rw [Swift.cases, Swift.byIndex_byIndex, Swift.cases]
      show Swift.enumScript _ (Swift.byIndex items) = Swift.enumScript _ items
      simp only [Swift.enumScript, hcases]
      rfl
  have hscript : Swift.script s.sorted = Swift.script s := by
    unfold Swift.script
    congr 1
    exact List.flatMap_congr fun root _ =>
      s.collect_changed Declaration.keepsLinks_sorted hnode root
  rw [Swift.code, hscript, Swift.code]

end Schema

/-! ### Lines in another order -/

/-- Lines with items in another order hold the same schema but for the order of items. -/
theorem Document.exists_of_itemsMoved {texts texts' : List String} (h : ItemsMoved texts texts')
    {d : Document} (hrun : Draft.start.Runs texts ⟨d.package, d.roots, .file⟩) :
    ∃ e : Document, Draft.start.Runs texts' ⟨e.package, e.roots, .file⟩ ∧
      e.toSchema.sorted = d.toSchema.sorted := by
  obtain ⟨r', hrun', halike⟩ := hrun.of_itemsMoved h
  obtain ⟨packages, forest, hfile, -, heq⟩ := hrun.file rfl
  obtain rfl : d.roots = forest := (Draft.mk.inj heq).2.1
  obtain ⟨package, roots⟩ := d
  cases halike with
  | @file _ _ roots' hroots =>
    refine ⟨⟨package, roots'⟩, hrun', ?_⟩
    have hdeclarations := hroots.declarations_sorted fun d hd =>
      ((spelledBy_of_isFile hfile).2 none 0 d hd).itemsApart
    simp only [Schema.sorted, Schema.changed, toSchema, hroots.numbers_eq, hdeclarations]

namespace Schema

/-- Items in another order are read as the same schema but for that order. -/
theorem ofLines_of_itemsMoved {lines lines' : List Line} {s : Schema}
    (h : Relation.ReflTransGen ItemsMoved (lines.map (·.text)) (lines'.map (·.text)))
    (hs : ofLines lines = .ok s) : ∃ t, ofLines lines' = .ok t ∧ t.sorted = s.sorted := by
  have hall {texts : List String}
      (h : Relation.ReflTransGen ItemsMoved (lines.map (·.text)) texts) : ∃ d : Document,
      Draft.start.Runs texts ⟨d.package, d.roots, .file⟩ ∧ d.toSchema.sorted = s.sorted := by
    induction h with
    | refl =>
      obtain ⟨d, hd, rfl⟩ := ofLines_eq_ok_iff_document.1 hs
      exact ⟨d, Document.ofLines_eq_ok_iff_runs.1 hd, rfl⟩
    | tail _ hstep ih =>
      obtain ⟨d, hrun, hsorted⟩ := ih
      obtain ⟨e, hrun', hsame⟩ := Document.exists_of_itemsMoved hstep hrun
      exact ⟨e, hrun', hsame.trans hsorted⟩
  obtain ⟨d, hrun, hsorted⟩ := hall h
  exact ⟨d.toSchema,
    ofLines_eq_ok_iff_document.2 ⟨d, Document.ofLines_eq_ok_iff_runs.2 hrun, rfl⟩, hsorted⟩

theorem linked_of_sorted_eq {s t u : Schema} {p : Prefixes} (h : t.sorted = s.sorted)
    (hs : s.linked p = .ok u) : ∃ v, t.linked p = .ok v ∧ v.sorted = u.sorted := by
  have hsame := t.linked_sorted p
  rw [h, linked_sorted, hs] at hsame
  cases ht : t.linked p with
  | error problem =>
    rw [ht] at hsame
    cases hsame
  | ok v =>
    rw [ht] at hsame
    exact ⟨v, rfl, (Except.ok.inj hsame).symm⟩

theorem linkedOfLines_of_itemsMoved {lines lines' : List Line} {p : Prefixes} {u : Schema}
    (h : Relation.ReflTransGen ItemsMoved (lines.map (·.text)) (lines'.map (·.text)))
    (hu : linkedOfLines p lines = .ok u) :
    ∃ v, linkedOfLines p lines' = .ok v ∧ Swift.code v = Swift.code u := by
  unfold linkedOfLines at hu
  cases hs : ofLines lines with
  | error problem =>
    rw [hs] at hu
    cases hu
  | ok s =>
    rw [hs] at hu
    obtain ⟨t, ht, hsorted⟩ := ofLines_of_itemsMoved h hs
    obtain ⟨v, hv, hsame⟩ := linked_of_sorted_eq hsorted hu
    refine ⟨v, ?_, by rw [← code_sorted, hsame, code_sorted]⟩
    rw [linkedOfLines, ht]
    exact hv

/-- The items of an enum that is read are printable and apart, and linking leaves them as they
are. -/
theorem items_of_linkedOfLines {lines : List Line} {p : Prefixes} {s : Schema}
    (h : linkedOfLines p lines = .ok s) {id : Nat} {d : Declaration} (hd : s.get? id = some d) :
    id ∈ s.listed ∧ (∀ i ∈ d.items, i.Printable) ∧ Apart Item.name Item.index d.items := by
  obtain ⟨document, hdocument, -, rfl⟩ := linkedOfLines_eq_ok_iff.1 h
  have hunlinked := unlinked_link document.toSchema p
  have hforest := document.isForest.of_unlinked_eq hunlinked
  obtain ⟨e, he, heq⟩ := exists_unlinked_eq hunlinked hd
  have htidy := (Document.ofLines_eq_ok_iff.1 hdocument).tidy.declarations e
    (List.mem_of_getElem? he)
  rw [← Declaration.unlinked_items, ← heq, Declaration.unlinked_items]
  exact ⟨hforest.mem_listed.2 (lt_of_get? hd), htidy.items, htidy.itemsApart⟩

/-- **The order of the items of an enum does not matter.** Where lines inside enums are in another
order, they can be read and linked or not as before, and the generated code is the same. Every
enum is in it with just its items, in strictly ascending order of their indices: as its cases, and
as the arms of both functions that convert it. -/
theorem linkedOfLines_itemsMoved {lines lines' : List Line}
    (h : Relation.ReflTransGen ItemsMoved (lines.map (·.text)) (lines'.map (·.text)))
    (p : Prefixes) :
    ((∃ s, linkedOfLines p lines = .ok s) ↔ ∃ t, linkedOfLines p lines' = .ok t) ∧
    ∀ s t, linkedOfLines p lines = .ok s → linkedOfLines p lines' = .ok t →
      Swift.code s = Swift.code t ∧ Swift.code s = Script.unlines (Swift.script s).lines ∧
      ∀ id d items, s.get? id = some d → d.body = .enumeration items →
        ∃ ordered, ordered.Perm items ∧ ordered.Pairwise (·.index < ·.index) ∧
          Swift.ListsItems (Swift.script s).lines d.names ordered := by
  have hback : Relation.ReflTransGen ItemsMoved (lines'.map (·.text)) (lines.map (·.text)) :=
    Relation.ReflTransGen.mono (fun _ _ hmoved => ItemsMoved.symm hmoved) _ _ h.swap
  refine ⟨⟨fun hs => ?_, fun ht => ?_⟩, fun s t hs ht => ⟨?_, rfl, ?_⟩⟩
  · obtain ⟨s, hs⟩ := hs
    obtain ⟨t, ht, -⟩ := linkedOfLines_of_itemsMoved h hs
    exact ⟨t, ht⟩
  · obtain ⟨t, ht⟩ := ht
    obtain ⟨s, hs, -⟩ := linkedOfLines_of_itemsMoved hback ht
    exact ⟨s, hs⟩
  · obtain ⟨t', ht', hcode⟩ := linkedOfLines_of_itemsMoved h hs
    cases ht.symm.trans ht'
    exact hcode.symm
  · intro id d items hd hbody
    have hitems : d.items = items := by rw [Declaration.items, hbody, Body.items]
    obtain ⟨hid, hprintable, hapart⟩ := items_of_linkedOfLines hs hd
    rw [hitems] at hprintable hapart
    exact ⟨Swift.byIndex items, Swift.byIndex_perm items, Swift.ascending_byIndex hapart,
      Swift.listsItems_script s hid hd hbody hprintable⟩

theorem linkedOfLines_itemsMoved_pair : ∃ s t,
    linkedOfLines ⟨"W", "P"⟩ (enumLines ["B = 2;", "A = 1;"]) = .ok s ∧
    linkedOfLines ⟨"W", "P"⟩ (enumLines ["A = 1;", "B = 2;"]) = .ok t ∧
    Swift.code s = Swift.code t := by
  have hopen : openBlocks ["message M \x7b", "enum E \x7b"] =
      [(.enumeration, "E"), (.message, "M")] := by decide +kernel
  have hmoved : ItemsMoved ((enumLines ["B = 2;", "A = 1;"]).map (·.text))
      ((enumLines ["A = 1;", "B = 2;"]).map (·.text)) :=
    .intro _ ["\x7d", "\x7d"] hopen (by decide) (.swap "A = 1;" "B = 2;" [])
  have hread : Document.ofLines (enumLines ["B = 2;", "A = 1;"]) =
      .ok (Document.enumSample [⟨"B", 2⟩, ⟨"A", 1⟩]) := by rfl
  have hlink : ((Document.enumSample [⟨"B", 2⟩, ⟨"A", 1⟩]).toSchema.link ⟨"W", "P"⟩).problem =
      none := by
    refine (link_ok_iff_linkFields (Document.isForest _)).2 fun id hid => ?_
    have hid' : id = 0 ∨ id = 1 := by
      have : id < 2 := hid
      omega
    rcases hid' with rfl | rfl
    · exact ⟨_, rfl⟩
    · exact ⟨_, rfl⟩
  obtain ⟨hsame, hcode⟩ := linkedOfLines_itemsMoved (.single hmoved) ⟨"W", "P"⟩
  have hs := linkedOfLines_eq_ok_iff.2 ⟨_, hread, hlink, rfl⟩
  obtain ⟨t, ht⟩ := hsame.1 ⟨_, hs⟩
  exact ⟨_, t, hs, ht, (hcode _ t hs ht).1⟩

end Schema
end SwiftWrap
