import SwiftWrap.Document.Basic
import SwiftWrap.Schema.Traversal
import Mathlib.Data.List.Nodup
import Mathlib.Logic.Relation

/-! Schemas whose links form a forest.

A declaration names its parent, and a parent lists its children. In a forest the two agree,
every declaration is listed once, and the numbers go up along the way through it
(`Schema.IsForest`). Then whatever is said by lists can be said by parents alone: what is
listed beside a declaration (`mem_beside_iff`) and what lies below it (`mem_below_iff`).

The schemas of documents are forests (`Document.isForest`), and there are no others
(`IsForest.exists_document`). -/
namespace SwiftWrap
namespace Schema

/-! ### Links -/

/-- The parent that a declaration names. -/
def parentOf (s : Schema) (id : Nat) : Option Nat := s.viewAt id none Declaration.parent

/-- One declaration names another as its parent. -/
def IsParent (s : Schema) (parent id : Nat) : Prop := s.parentOf id = some parent

/-- The links of a schema form a forest, numbered along the way through it. -/
structure IsForest (s : Schema) : Prop where
  /-- The way through the listed declarations meets every number once, in order. -/
  preorder : s.listed = List.range s.declarations.length
  /-- What is listed at file scope has no parent. -/
  root : ∀ id ∈ s.roots, ∃ d, s.get? id = some d ∧ d.parent = none
  /-- What a declaration lists has that declaration as its parent. -/
  child : ∀ id d, s.get? id = some d → ∀ c ∈ d.children, ∃ e, s.get? c = some e ∧ e.parent = some id

theorem viewAt_of_get? {s : Schema} {id : Nat} {d : Declaration} (h : s.get? id = some d)
    (otherwise : α) (view : Declaration → α) : s.viewAt id otherwise view = view d := by
  simp only [viewAt, h]

theorem lt_of_get? {s : Schema} {id : Nat} {d : Declaration} (h : s.get? id = some d) :
    id < s.declarations.length :=
  (List.getElem?_eq_some_iff.1 h).1

theorem exists_get? {s : Schema} {id : Nat} (h : id < s.declarations.length) :
    ∃ d, s.get? id = some d :=
  ⟨_, List.getElem?_eq_getElem h⟩

theorem parentOf_eq_some_iff {s : Schema} {id parent : Nat} :
    s.parentOf id = some parent ↔ ∃ d, s.get? id = some d ∧ d.parent = some parent := by
  unfold parentOf viewAt
  cases s.get? id <;> simp

theorem beside_eq (s : Schema) (id : Nat) : s.beside id = match s.parentOf id with
    | none => s.roots
    | some parent => s.viewAt parent [] Declaration.children := rfl

theorem beside_of_root {s : Schema} {id : Nat} {d : Declaration} (hd : s.get? id = some d)
    (h : d.parent = none) : s.beside id = s.roots := by
  have hparent : s.parentOf id = none := (viewAt_of_get? hd ..).trans h
  rw [beside_eq, hparent]

theorem beside_of_parent {s : Schema} {id parent : Nat} {d p : Declaration}
    (hd : s.get? id = some d) (h : d.parent = some parent) (hp : s.get? parent = some p) :
    s.beside id = p.children := by
  have hparent : s.parentOf id = some parent := (viewAt_of_get? hd ..).trans h
  rw [beside_eq, hparent]
  exact viewAt_of_get? hp ..

/-! ### Ways up -/

theorem enclosing_of_none {s : Schema} {id : Nat} (h : s.parentOf id = none) :
    s.enclosing id = [] := by
  rw [enclosing]
  show (match s.parentOf id with | none => [] | some parent => _) = _
  rw [h]

theorem enclosing_of_some {s : Schema} {id parent : Nat} (h : s.parentOf id = some parent)
    (hlt : parent < id) : s.enclosing id = parent :: s.enclosing parent := by
  rw [enclosing]
  show (match s.parentOf id with | none => [] | some parent => _) = _
  rw [h]
  exact if_pos hlt

/-! ### Ways down -/

theorem collect_of_none {s : Schema} {node : Nat → Declaration → List α → List α} {id : Nat}
    (h : s.get? id = none) : s.collect node id = [] := by
  rw [collect]
  split
  · rfl
  · next d hd => simp [get?, hd] at h

theorem collect_of_get? {s : Schema} {node : Nat → Declaration → List α → List α} {id : Nat}
    {d : Declaration} (h : s.get? id = some d) :
    s.collect node id =
      node id d (d.children.flatMap fun c => if id < c then s.collect node c else []) := by
  rw [collect]
  split
  · next hd => simp [get?, hd] at h
  · next e hd =>
    simp only [get?, hd, Option.some.injEq] at h
    subst h
    simp only [dite_eq_ite]

/-- Links point to greater numbers, of which there are finitely many. -/
theorem downward_induction (s : Schema) {P : Nat → Prop}
    (step : ∀ id, (id < s.declarations.length → ∀ c, id < c → P c) → P id) (id : Nat) : P id := by
  induction hn : s.declarations.length - id using Nat.strongRecOn generalizing id with
  | _ n ih =>
    refine step id fun hlt c hc => ih (s.declarations.length - c) ?_ c rfl
    omega

theorem subtree_of_get? {s : Schema} {id : Nat} {d : Declaration} (h : s.get? id = some d) :
    s.subtree id = id :: d.children.flatMap fun c => if id < c then s.subtree c else [] :=
  collect_of_get? h

theorem mem_subtree_self {s : Schema} {id : Nat} (h : id < s.declarations.length) :
    id ∈ s.subtree id := by
  obtain ⟨d, hd⟩ := exists_get? h
  rw [subtree_of_get? hd]
  exact List.mem_cons_self

/-- What a way down meets is its start, or was listed by something before it. -/
theorem mem_subtree_cases {s : Schema} {id x : Nat} (h : x ∈ s.subtree id) :
    x = id ∨ ∃ p d, s.get? p = some d ∧ x ∈ d.children ∧ p < x := by
  induction id using s.downward_induction with
  | step id ih =>
    cases hd : s.get? id with
    | none =>
      rw [subtree, collect_of_none hd] at h
      simp at h
    | some d =>
      rw [subtree_of_get? hd] at h
      rcases List.mem_cons.1 h with rfl | h
      · exact .inl rfl
      · obtain ⟨c, hc, hx⟩ := List.mem_flatMap.1 h
        split at hx
        · next hlt =>
          rcases ih (lt_of_get? hd) c hlt hx with rfl | hlisted
          · exact .inr ⟨id, d, hd, hc, hlt⟩
          · exact .inr hlisted
        · simp at hx

/-- The way down from a declaration is a part of every way that meets it. -/
theorem subtree_part {s : Schema} {id x : Nat} (h : x ∈ s.subtree id) :
    s.subtree x <:+: s.subtree id := by
  induction id using s.downward_induction with
  | step id ih =>
    cases hd : s.get? id with
    | none =>
      rw [subtree, collect_of_none hd] at h
      simp at h
    | some d =>
      rw [subtree_of_get? hd] at h
      rcases List.mem_cons.1 h with rfl | h
      · exact List.infix_refl _
      · obtain ⟨c, hc, hx⟩ := List.mem_flatMap.1 h
        have hpart := List.infix_of_mem_flatten
          (List.mem_map_of_mem (f := fun c => if id < c then s.subtree c else []) hc)
        split at hx
        · next hlt =>
          rw [if_pos hlt] at hpart
          rw [subtree_of_get? hd]
          exact ((ih (lt_of_get? hd) c hlt hx).trans hpart).trans (List.suffix_cons ..).isInfix
        · simp at hx

/-! ### Links to greater numbers -/

/-- Links lead to greater numbers: a parent that is named has a smaller one, and a child that is
listed a greater one. -/
structure Ascending (s : Schema) : Prop where
  up : ∀ {id parent}, s.IsParent parent id → parent < id
  down : ∀ {id d c}, s.get? id = some d → c ∈ d.children → id < c

namespace Ascending
variable {s : Schema} (hs : s.Ascending)
include hs

/-- No link is passed over on the way down. -/
theorem collect_eq {node : Nat → Declaration → List α → List α} {id : Nat} {d : Declaration}
    (hd : s.get? id = some d) :
    s.collect node id = node id d (d.children.flatMap (s.collect node)) := by
  rw [collect_of_get? hd]
  congr 1
  exact List.flatMap_congr fun c hc => if_pos (hs.down hd hc)

/-- No link is passed over on the way up. -/
theorem enclosing_eq (id : Nat) : s.enclosing id = match s.parentOf id with
    | none => []
    | some parent => parent :: s.enclosing parent := by
  cases hparent : s.parentOf id with
  | none => exact enclosing_of_none hparent
  | some parent => exact enclosing_of_some hparent (hs.up hparent)

/-- What is read off a declaration and all around it, outermost first, is what is read off
around its parent, and one more. -/
theorem chain_eq (view : Nat → α) (id : Nat) :
    ((id :: s.enclosing id).map view).reverse =
      (match s.parentOf id with
        | none => []
        | some parent => ((parent :: s.enclosing parent).map view).reverse) ++ [view id] := by
  rw [List.map_cons, List.reverse_cons, hs.enclosing_eq id]
  cases s.parentOf id with
  | none => rfl
  | some parent => rfl

end Ascending

/-! ### What parents say about lists -/

namespace IsForest
variable {s : Schema}

theorem mem_listed (hs : s.IsForest) {id : Nat} :
    id ∈ s.listed ↔ id < s.declarations.length := by
  rw [hs.preorder, List.mem_range]

/-- A declaration is listed at file scope, or by a declaration before it. -/
theorem listed_cases (hs : s.IsForest) {id : Nat} (h : id < s.declarations.length) :
    id ∈ s.roots ∨ ∃ p d, s.get? p = some d ∧ id ∈ d.children ∧ p < id := by
  obtain ⟨root, hroot, hid⟩ := List.mem_flatMap.1 (hs.mem_listed.2 h)
  rcases mem_subtree_cases hid with rfl | hlisted
  · exact .inl hroot
  · exact .inr hlisted

/-- What has no parent is listed at file scope. -/
theorem mem_roots_iff (hs : s.IsForest) {id : Nat} :
    id ∈ s.roots ↔ ∃ d, s.get? id = some d ∧ d.parent = none := by
  refine ⟨hs.root id, ?_⟩
  intro hx
  obtain ⟨d, hd, hparent⟩ := hx
  rcases hs.listed_cases (lt_of_get? hd) with hroot | ⟨p, e, he, hchild, -⟩
  · exact hroot
  · obtain ⟨d', hd', hparent'⟩ := hs.child p e he id hchild
    simp_all

/-- A declaration lists what names it as its parent. -/
theorem mem_children_iff (hs : s.IsForest) {p id : Nat} {d : Declaration}
    (hd : s.get? p = some d) : id ∈ d.children ↔ s.IsParent p id := by
  unfold IsParent
  rw [parentOf_eq_some_iff]
  refine ⟨hs.child p d hd id, ?_⟩
  intro hx
  obtain ⟨e, he, hparent⟩ := hx
  rcases hs.listed_cases (lt_of_get? he) with hroot | ⟨q, d', hd', hchild, -⟩
  · obtain ⟨e', he', hnone⟩ := hs.root id hroot
    simp_all
  · obtain ⟨e', he', hparent'⟩ := hs.child q d' hd' id hchild
    simp_all

/-- A parent is there, and has a smaller number. -/
theorem isParent_lt (hs : s.IsForest) {p id : Nat} (h : s.IsParent p id) :
    p < id ∧ ∃ d, s.get? p = some d := by
  obtain ⟨e, he, hparent⟩ := parentOf_eq_some_iff.1 h
  rcases hs.listed_cases (lt_of_get? he) with hroot | ⟨q, d, hd, hchild, hlt⟩
  · obtain ⟨e', he', hnone⟩ := hs.root id hroot
    simp_all
  · obtain ⟨e', he', hparent'⟩ := hs.child q d hd id hchild
    simp_all

theorem ascending (hs : s.IsForest) : s.Ascending where
  up h := (hs.isParent_lt h).1
  down hd hc := (hs.isParent_lt ((hs.mem_children_iff hd).1 hc)).1

theorem below_eq (hs : s.IsForest) {id : Nat} {d : Declaration} (hd : s.get? id = some d) :
    s.below id = d.children.flatMap s.subtree := by
  rw [below, subtree, hs.ascending.collect_eq hd]
  rfl

theorem mem_subtree_iff (hs : s.IsForest) {id x : Nat} (h : id < s.declarations.length) :
    x ∈ s.subtree id ↔ x = id ∨ x ∈ s.below id := by
  obtain ⟨d, hd⟩ := exists_get? h
  rw [hs.below_eq hd, subtree, hs.ascending.collect_eq hd]
  exact List.mem_cons

/-- What lies below a declaration is what its parents lead up to it from. -/
theorem mem_below_iff (hs : s.IsForest) {id x : Nat} :
    x ∈ s.below id ↔ Relation.TransGen s.IsParent id x := by
  constructor
  · intro h
    induction id using s.downward_induction with
    | step id ih =>
      cases hd : s.get? id with
      | none =>
        rw [below, subtree, collect_of_none hd] at h
        simp at h
      | some d =>
        rw [hs.below_eq hd] at h
        obtain ⟨c, hc, hx⟩ := List.mem_flatMap.1 h
        have hparent := (hs.mem_children_iff hd).1 hc
        obtain ⟨e, he, -⟩ := parentOf_eq_some_iff.1 hparent
        rcases (hs.mem_subtree_iff (lt_of_get? he)).1 hx with rfl | hx
        · exact .single hparent
        · exact .head hparent (ih (lt_of_get? hd) c (hs.isParent_lt hparent).1 hx)
  · intro h
    have hstep : ∀ {a c}, s.IsParent a c → x ∈ s.subtree c → x ∈ s.below a := by
      intro a c hparent hx
      obtain ⟨-, d, hd⟩ := hs.isParent_lt hparent
      rw [hs.below_eq hd]
      exact List.mem_flatMap.2 ⟨c, (hs.mem_children_iff hd).2 hparent, hx⟩
    have hlt : ∀ {a c}, s.IsParent a c → c < s.declarations.length := by
      intro a c hparent
      obtain ⟨e, he, -⟩ := parentOf_eq_some_iff.1 hparent
      exact lt_of_get? he
    induction h using Relation.TransGen.head_induction_on with
    | single hparent => exact hstep hparent (mem_subtree_self (hlt hparent))
    | head hparent _ ih => exact hstep hparent ((hs.mem_subtree_iff (hlt hparent)).2 (.inr ih))

/-- What stands beside a declaration has the same parent. -/
theorem mem_beside_iff (hs : s.IsForest) {id x : Nat} :
    x ∈ s.beside id ↔ x < s.declarations.length ∧ s.parentOf x = s.parentOf id := by
  rw [beside_eq]
  split
  · next hnone =>
    rw [hs.mem_roots_iff, hnone]
    constructor
    · intro hx
      obtain ⟨d, hd, hparent⟩ := hx
      exact ⟨lt_of_get? hd, (viewAt_of_get? hd ..).trans hparent⟩
    · intro hx
      obtain ⟨hlt, hparent⟩ := hx
      obtain ⟨d, hd⟩ := exists_get? hlt
      exact ⟨d, hd, (viewAt_of_get? hd ..).symm.trans hparent⟩
  · next parent hsome =>
    obtain ⟨-, d, hd⟩ := hs.isParent_lt hsome
    rw [viewAt_of_get? hd, hs.mem_children_iff hd, hsome]
    constructor
    · intro hparent
      obtain ⟨e, he, -⟩ := parentOf_eq_some_iff.1 hparent
      exact ⟨lt_of_get? he, hparent⟩
    · exact fun h => h.2

/-! ### Nothing is listed twice -/

/-- The way down from a declaration is a part of the way through the schema. -/
theorem subtree_infix (hs : s.IsForest) (id : Nat) :
    s.subtree id <:+: List.range s.declarations.length := by
  cases hd : s.get? id with
  | none =>
    rw [subtree, collect_of_none hd]
    exact List.nil_infix
  | some d =>
    obtain ⟨root, hroot, hid⟩ := List.mem_flatMap.1 (hs.mem_listed.2 (lt_of_get? hd))
    have hpart : s.subtree root <:+: s.listed :=
      List.infix_of_mem_flatten (List.mem_map_of_mem hroot)
    rw [← hs.preorder]
    exact (subtree_part hid).trans hpart

theorem nodup_subtree (hs : s.IsForest) (id : Nat) : (s.subtree id).Nodup :=
  (hs.subtree_infix id).sublist.nodup List.nodup_range

theorem nodup_below (hs : s.IsForest) (id : Nat) : (s.below id).Nodup :=
  (List.tail_sublist _).nodup (hs.nodup_subtree id)

/-- Distinct ways down need distinct starts. -/
theorem sublist_flatMap_subtree {ids : List Nat} (h : ∀ id ∈ ids, id < s.declarations.length) :
    ids.Sublist (ids.flatMap s.subtree) := by
  induction ids with
  | nil => exact List.Sublist.refl _
  | cons id ids ih =>
    obtain ⟨d, hd⟩ := exists_get? (h id List.mem_cons_self)
    rw [List.flatMap_cons, subtree_of_get? hd, List.cons_append]
    have hrest := ih fun x hx => h x (List.mem_cons_of_mem id hx)
    exact (hrest.trans (List.sublist_append_right ..)).cons_cons id

theorem roots_sublist (hs : s.IsForest) :
    s.roots.Sublist (List.range s.declarations.length) := by
  rw [← hs.preorder]
  refine sublist_flatMap_subtree fun id hid => ?_
  obtain ⟨d, hd, -⟩ := hs.root id hid
  exact lt_of_get? hd

theorem children_sublist (hs : s.IsForest) {id : Nat} {d : Declaration}
    (hd : s.get? id = some d) : d.children.Sublist (List.range s.declarations.length) := by
  have hbelow : d.children.Sublist (s.below id) := by
    rw [hs.below_eq hd]
    refine sublist_flatMap_subtree fun c hc => ?_
    obtain ⟨e, he, -⟩ := hs.child id d hd c hc
    exact lt_of_get? he
  exact hbelow.trans ((List.tail_sublist _).trans (hs.subtree_infix id).sublist)

/-- So no declaration is listed twice. -/
theorem nodup_beside (hs : s.IsForest) (id : Nat) : (s.beside id).Nodup := by
  rw [beside_eq]
  split
  · exact hs.roots_sublist.nodup List.nodup_range
  · next parent hsome =>
    obtain ⟨-, d, hd⟩ := hs.isParent_lt hsome
    rw [viewAt_of_get? hd]
    exact (hs.children_sublist hd).nodup List.nodup_range

end IsForest
end Schema

/-! ### Forests in schemas -/

namespace Forest

/-- The declarations of a forest stand in a schema, from a number on. -/
def PlacedIn (s : Schema) (parent : Option Nat) (n : Nat) (f : Forest) : Prop :=
  f.declarations parent n <+: s.declarations.drop n

/-- A declaration and others behind it. -/
theorem cons_prefix_drop_iff {s : Schema} {n : Nat} {d : Declaration} {rest : List Declaration} :
    d :: rest <+: s.declarations.drop n ↔
      s.get? n = some d ∧ rest <+: s.declarations.drop (n + 1) := by
  unfold Schema.get?
  cases hd : s.declarations[n]? with
  | none => simp [List.drop_eq_nil_of_le (List.getElem?_eq_none_iff.1 hd)]
  | some e =>
    obtain ⟨hlt, he⟩ := List.getElem?_eq_some_iff.1 hd
    rw [List.drop_eq_getElem_cons hlt, he, List.cons_prefix_cons, Option.some.injEq, eq_comm]

theorem append_prefix_drop_iff {s : Schema} {n : Nat} {first rest : List Declaration} :
    first ++ rest <+: s.declarations.drop n ↔
      first <+: s.declarations.drop n ∧ rest <+: s.declarations.drop (n + first.length) := by
  induction first generalizing n with
  | nil => simp
  | cons d first ih =>
    rw [List.cons_append, cons_prefix_drop_iff, cons_prefix_drop_iff, ih, and_assoc,
      List.length_cons, Nat.add_assoc, Nat.add_comm 1]

/-- A message stands in front of what is nested in it, and that in front of its siblings. -/
theorem placedIn_message_iff {s : Schema} {parent : Option Nat} {n : Nat} {name : String}
    {fields : List Field} {nested rest : Forest} :
    (message name fields nested rest).PlacedIn s parent n ↔
      s.get? n = some ⟨name, parent, .message (nested.numbers (n + 1)) fields, .none⟩ ∧
      nested.PlacedIn s (some n) (n + 1) ∧ rest.PlacedIn s parent (n + 1 + nested.size) := by
  unfold PlacedIn
  rw [declarations, cons_prefix_drop_iff, append_prefix_drop_iff, length_declarations]

theorem placedIn_enumeration_iff {s : Schema} {parent : Option Nat} {n : Nat} {name : String}
    {items : List Item} {rest : Forest} :
    (enumeration name items rest).PlacedIn s parent n ↔
      s.get? n = some ⟨name, parent, .enumeration items, .none⟩ ∧
      rest.PlacedIn s parent (n + 1) := by
  unfold PlacedIn
  rw [declarations, cons_prefix_drop_iff]

/-- The way through a forest takes its numbers in order. -/
theorem flatMap_subtree {s : Schema} {f : Forest} {parent : Option Nat} {n : Nat}
    (h : f.PlacedIn s parent n) : (f.numbers n).flatMap s.subtree = List.range' n f.size := by
  induction f generalizing parent n with
  | nil => rfl
  | message name fields nested rest ihnested ihrest =>
    obtain ⟨hd, hnested, hrest⟩ := placedIn_message_iff.1 h
    have hbelow : s.subtree n = n :: List.range' (n + 1) nested.size := by
      rw [Schema.subtree_of_get? hd, ← ihnested hnested]
      congr 1
      refine List.flatMap_congr fun c hc => if_pos ?_
      exact le_of_mem_numbers hc
    have hsize : (message name fields nested rest).size = nested.size + rest.size + 1 := by
      rw [size]
      omega
    rw [numbers, List.flatMap_cons, hbelow, ihrest hrest, List.cons_append, List.range'_append_1,
      hsize, List.range'_succ]
  | enumeration name items rest ih =>
    obtain ⟨hd, hrest⟩ := placedIn_enumeration_iff.1 h
    have hbelow : s.subtree n = [n] := Schema.subtree_of_get? hd
    rw [numbers, List.flatMap_cons, hbelow, ih hrest, size, Nat.add_comm 1, List.range'_succ]
    rfl

/-- The outermost declarations of a forest have its parent. -/
theorem parent_of_mem_numbers {s : Schema} {f : Forest} {parent : Option Nat} {n id : Nat}
    (h : f.PlacedIn s parent n) (hid : id ∈ f.numbers n) :
    ∃ d, s.get? id = some d ∧ d.parent = parent := by
  induction f generalizing n with
  | nil => simp [numbers] at hid
  | message name fields nested rest _ ih =>
    obtain ⟨hd, -, hrest⟩ := placedIn_message_iff.1 h
    rcases List.mem_cons.1 hid with rfl | hid
    · exact ⟨_, hd, rfl⟩
    · exact ih hrest hid
  | enumeration name items rest ih =>
    obtain ⟨hd, hrest⟩ := placedIn_enumeration_iff.1 h
    rcases List.mem_cons.1 hid with rfl | hid
    · exact ⟨_, hd, rfl⟩
    · exact ih hrest hid

/-- The others have the declaration that lists them. -/
theorem parent_of_mem_children {s : Schema} {f : Forest} {parent : Option Nat} {n id c : Nat}
    {d : Declaration} (h : f.PlacedIn s parent n) (hle : n ≤ id) (hlt : id < n + f.size)
    (hd : s.get? id = some d) (hc : c ∈ d.children) :
    ∃ e, s.get? c = some e ∧ e.parent = some id := by
  induction f generalizing parent n with
  | nil => simp [size] at hlt; omega
  | message name fields nested rest ihnested ihrest =>
    obtain ⟨hn, hnested, hrest⟩ := placedIn_message_iff.1 h
    rw [size] at hlt
    by_cases hid : id = n
    · subst hid
      rw [hn] at hd
      cases hd
      exact parent_of_mem_numbers hnested hc
    · by_cases hside : id < n + 1 + nested.size
      · exact ihnested hnested (by omega) (by omega)
      · exact ihrest hrest (by omega) (by omega)
  | enumeration name items rest ih =>
    obtain ⟨hn, hrest⟩ := placedIn_enumeration_iff.1 h
    rw [size] at hlt
    by_cases hid : id = n
    · subst hid
      rw [hn] at hd
      cases hd
      cases hc
    · exact ih hrest (by omega) (by omega)

/-- What stands below a declaration that lists it is listed. -/
theorem mem_beside_of_children {s : Schema} {f : Forest} {parent n : Nat} {d : Declaration}
    (h : f.PlacedIn s (some parent) n) (hd : s.get? parent = some d)
    (hchildren : d.children = f.numbers n) : ∀ c ∈ f.numbers n, c ∈ s.beside c := by
  intro c hc
  obtain ⟨e, he, hparent⟩ := parent_of_mem_numbers h hc
  rw [Schema.beside_of_parent he hparent hd, hchildren]
  exact hc

/-- Whatever is placed is listed beside itself, if the outermost are. -/
theorem mem_beside {s : Schema} {f : Forest} {parent : Option Nat} {n id : Nat}
    (h : f.PlacedIn s parent n) (hlisted : ∀ c ∈ f.numbers n, c ∈ s.beside c) (hle : n ≤ id)
    (hlt : id < n + f.size) : id ∈ s.beside id := by
  induction f generalizing parent n with
  | nil => simp [size] at hlt; omega
  | message name fields nested rest ihnested ihrest =>
    obtain ⟨hn, hnested, hrest⟩ := placedIn_message_iff.1 h
    obtain ⟨hfirst, hothers⟩ := List.forall_mem_cons.1 hlisted
    rw [size] at hlt
    have hchildren := mem_beside_of_children hnested hn rfl
    by_cases hid : id = n
    · exact hid ▸ hfirst
    · by_cases hside : id < n + 1 + nested.size
      · exact ihnested hnested hchildren (by omega) (by omega)
      · exact ihrest hrest hothers (by omega) (by omega)
  | enumeration name items rest ih =>
    obtain ⟨-, hrest⟩ := placedIn_enumeration_iff.1 h
    obtain ⟨hfirst, hothers⟩ := List.forall_mem_cons.1 hlisted
    rw [size] at hlt
    by_cases hid : id = n
    · exact hid ▸ hfirst
    · exact ih hrest hothers (by omega) (by omega)

/-- Siblings whose ways down take the numbers in order are those of some forest. The
induction is on how many declarations there are. -/
theorem exists_placedIn {s : Schema} (hs : s.IsForest)
    (hnames : ∀ d ∈ s.declarations, d.names = .none) {size n : Nat} {ids : List Nat}
    {parent : Option Nat}
    (hids : ids.flatMap s.subtree = List.range' n size)
    (hparent : ∀ id ∈ ids, ∃ d, s.get? id = some d ∧ d.parent = parent) :
    ∃ f : Forest, f.numbers n = ids ∧ f.size = size ∧ f.PlacedIn s parent n := by
  induction size using Nat.strongRecOn generalizing n ids parent with
  | _ size ih =>
    cases ids with
    | nil =>
      have hsize : size = 0 := List.range'_eq_nil_iff.1 hids.symm
      exact ⟨.nil, rfl, hsize.symm, List.nil_prefix⟩
    | cons id rest =>
      obtain ⟨d, hd, hd'⟩ := hparent id List.mem_cons_self
      have hrest : ∀ x ∈ rest, ∃ e, s.get? x = some e ∧ e.parent = parent := fun x hx =>
        hparent x (List.mem_cons_of_mem id hx)
      rw [List.flatMap_cons, Schema.subtree, hs.ascending.collect_eq hd, List.cons_append] at hids
      obtain ⟨rfl, hpos, htail⟩ := List.range'_eq_cons_iff.1 hids.symm
      obtain ⟨k, hk, hbelow, hafter⟩ := List.range'_eq_append_iff.1 htail.symm
      rw [Nat.mul_one] at hafter
      obtain ⟨nested, hnumbers, rfl, hnested⟩ :=
        ih k (by omega) hbelow (hs.child n d hd)
      obtain ⟨others, hnumbers', hsize, hothers⟩ :=
        ih (size - 1 - nested.size) (by omega) hafter hrest
      have hname := hnames d (List.mem_of_getElem? hd)
      obtain ⟨name, parent', body, names⟩ := d
      cases hd'
      cases hname
      cases body with
      | message children fields =>
        refine ⟨.message name fields nested others, ?_, ?_,
          placedIn_message_iff.2 ⟨?_, hnested, hothers⟩⟩
        · rw [numbers, hnumbers']
        · rw [Forest.size]
          omega
        · rw [hnumbers]
          exact hd
      | enumeration items =>
        have hempty : nested.size = 0 := (List.range'_eq_nil_iff.1 hbelow.symm)
        rw [hempty] at hnumbers' hothers
        refine ⟨.enumeration name items others, ?_, ?_, placedIn_enumeration_iff.2 ⟨hd, hothers⟩⟩
        · rw [numbers]
          exact congrArg _ hnumbers'
        · rw [Forest.size]
          omega

end Forest

/-! ### Documents -/

/-- The declarations of a forest stand in a schema from one number to another, all with one
parent and nothing in between: each message lists its own, which stand right behind it. The
numbers are those of the outermost. -/
inductive Forest.StandsIn (s : Schema) : Option Nat → Nat → Forest → List Nat → Nat → Prop where
  | nil {parent : Option Nat} {n : Nat} : StandsIn s parent n .nil [] n
  | message {parent : Option Nat} {n next last : Nat} {name : String} {fields : List Field}
      {nested rest : Forest} {children ids : List Nat}
      (hd : s.get? n = some ⟨name, parent, .message children fields, .none⟩)
      (hnested : StandsIn s (some n) (n + 1) nested children next)
      (hrest : StandsIn s parent next rest ids last) :
      StandsIn s parent n (.message name fields nested rest) (n :: ids) last
  | enumeration {parent : Option Nat} {n last : Nat} {name : String} {items : List Item}
      {rest : Forest} {ids : List Nat}
      (hd : s.get? n = some ⟨name, parent, .enumeration items, .none⟩)
      (hrest : StandsIn s parent (n + 1) rest ids last) :
      StandsIn s parent n (.enumeration name items rest) (n :: ids) last

/-- A schema is the tree of a document: it has its package, its declarations and no others, and
lists at file scope what stands there. -/
structure Document.IsTree (d : Document) (s : Schema) : Prop where
  package : s.package = d.package
  declarations : d.roots.StandsIn s none 0 s.roots s.declarations.length

/-- Where a forest stands, its numbers are as they are counted. -/
theorem Forest.standsIn_iff {s : Schema} {f : Forest} {parent : Option Nat} {n last : Nat}
    {ids : List Nat} : f.StandsIn s parent n ids last ↔
      f.PlacedIn s parent n ∧ ids = f.numbers n ∧ last = n + f.size := by
  constructor
  · intro h
    induction h with
    | nil => exact ⟨List.nil_prefix, rfl, rfl⟩
    | message hd _ _ ihnested ihrest =>
      obtain ⟨hnested, rfl, rfl⟩ := ihnested
      obtain ⟨hrest, rfl, rfl⟩ := ihrest
      refine ⟨placedIn_message_iff.2 ⟨hd, hnested, hrest⟩, rfl, ?_⟩
      rw [size]
      omega
    | enumeration hd _ ih =>
      obtain ⟨hrest, rfl, rfl⟩ := ih
      refine ⟨placedIn_enumeration_iff.2 ⟨hd, hrest⟩, rfl, ?_⟩
      rw [size]
      omega
  · rintro ⟨h, rfl, rfl⟩
    induction f generalizing parent n with
    | nil => exact .nil
    | message name fields nested rest ihnested ihrest =>
      obtain ⟨hd, hnested, hrest⟩ := placedIn_message_iff.1 h
      have hlast : n + 1 + nested.size + rest.size =
          n + (message name fields nested rest).size := by
        rw [size]
        omega
      exact .message hd (ihnested hnested) (hlast ▸ ihrest hrest)
    | enumeration name items rest ih =>
      obtain ⟨hd, hrest⟩ := placedIn_enumeration_iff.1 h
      have hlast : n + 1 + rest.size = n + (enumeration name items rest).size := by
        rw [size]
        omega
      exact .enumeration hd (hlast ▸ ih hrest)

theorem Document.placedIn (d : Document) : d.roots.PlacedIn d.toSchema none 0 :=
  List.prefix_refl _

/-- A document has one tree, which counts its blocks in the order they open. -/
theorem Document.isTree_iff {d : Document} {s : Schema} : d.IsTree s ↔ d.toSchema = s := by
  constructor
  · intro h
    obtain ⟨hplaced, hroots, hlength⟩ := Forest.standsIn_iff.1 h.declarations
    have hdeclarations : d.roots.declarations none 0 = s.declarations := by
      apply hplaced.eq_of_length
      rw [Forest.length_declarations, List.drop_zero, hlength, Nat.zero_add]
    rw [Document.toSchema, ← h.package, ← hroots, hdeclarations]
  · rintro rfl
    have hlength : d.toSchema.declarations.length = d.roots.size := Forest.length_declarations ..
    exact ⟨rfl, Forest.standsIn_iff.2 ⟨d.placedIn, rfl, by omega⟩⟩

/-- A document is numbered into a forest. -/
theorem Document.isForest (d : Document) : d.toSchema.IsForest where
  preorder := by
    have hlength : d.toSchema.declarations.length = d.roots.size := Forest.length_declarations ..
    rw [hlength, List.range_eq_range']
    exact Forest.flatMap_subtree d.placedIn
  root id hid := Forest.parent_of_mem_numbers d.placedIn hid
  child id e he c hc := by
    have hlt := Schema.lt_of_get? he
    have hlength : d.toSchema.declarations.length = d.roots.size := Forest.length_declarations ..
    exact Forest.parent_of_mem_children d.placedIn (Nat.zero_le id) (by omega) he hc

/-- A forest that has not been given names is the schema of a document. -/
theorem Schema.IsForest.exists_document {s : Schema} (hs : s.IsForest)
    (hnames : ∀ d ∈ s.declarations, d.names = .none) : ∃ d : Document, d.toSchema = s := by
  have hlisted : s.roots.flatMap s.subtree = List.range' 0 s.declarations.length := by
    rw [← List.range_eq_range']
    exact hs.preorder
  obtain ⟨f, hnumbers, hsize, hplaced⟩ := Forest.exists_placedIn hs hnames hlisted hs.root
  have hdeclarations : f.declarations none 0 = s.declarations := by
    apply hplaced.eq_of_length
    rw [Forest.length_declarations, hsize, List.drop_zero]
  refine ⟨⟨s.package, f⟩, ?_⟩
  rw [Document.toSchema, hnumbers, hdeclarations]

end SwiftWrap
