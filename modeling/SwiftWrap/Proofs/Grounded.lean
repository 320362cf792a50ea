import SwiftWrap.Output
import SwiftWrap.Schema.Edit
import SwiftWrap.Proofs.Grammar
import SwiftWrap.Proofs.Linking
import Mathlib.Logic.Relation

/-! Schemas under edits.

Nothing in the type of a schema keeps its links from running in circles or into nothing: they
are numbers. What keeps them straight is how schemas come about. A declaration is made with a
parent that is there already, so parents have smaller numbers, and only its parent ever lists
it. `Schema.Grounded` says so, `Grounded.step` that every edit keeps it, and `Reached.grounded`
that it holds after any number of edits.

Edits may list a declaration twice or never, and make an enum the parent of another
declaration. So a grounded schema need not be a forest, and what is said here about its
traversals is said without that. -/
namespace SwiftWrap

/-- The declaration that a type refers to. -/
def TypeRef.target? : TypeRef → Option Nat
  | enumeration target | message target => some target
  | scalar _ | unresolved => none

namespace Schema

/-- A number that a declaration has. -/
def Has (s : Schema) (id : Nat) : Prop := id < s.declarations.length

instance (s : Schema) (id : Nat) : Decidable (s.Has id) := inferInstanceAs (Decidable (_ < _))

/-- A field whose type refers to nothing outside the schema. -/
def Knows (s : Schema) (f : Field) : Prop := ∀ target ∈ f.type.target?, s.Has target

/-- Links lead up to smaller numbers and down to greater ones, and never outside. -/
structure Grounded (s : Schema) : Prop where
  parent_lt : ∀ {id parent}, s.IsParent parent id → parent < id
  child : ∀ {id d}, s.get? id = some d → ∀ c ∈ d.children, s.IsParent id c
  root : ∀ id ∈ s.roots, s.Has id ∧ s.parentOf id = none
  target : ∀ {id d}, s.get? id = some d → ∀ f ∈ d.fields, s.Knows f

/-! ### Edits -/

/-- What can be done to a schema. A parent, and what a type that is set refers to, is a declaration
that is there already; which of them are adopted, in what order and how often is left open. -/
inductive Step (s : Schema) : Schema → Prop where
  | declare (parent : Option Nat) (name : String) (kind : Kind) (h : ∀ p ∈ parent, s.Has p) :
      Step s (s.declare parent name kind)
  | adopt (id : Nat) : Step s (s.adopt id)
  | setPackage (package : Option String) : Step s (s.setPackage package)
  | addField (id : Nat) (field : Field) (h : s.Knows field) : Step s (s.addField id field)
  | addItem (id : Nat) (item : Item) : Step s (s.addItem id item)
  | setFieldType (id position : Nat) (type : TypeRef) (h : ∀ target ∈ type.target?, s.Has target) :
      Step s (s.setFieldType id position type)
  /-- Linking, with what it leaves behind if it fails. -/
  | link (p : Prefixes) : Step s (s.link p).schema
  /-- Another schema in its place, read from lines. -/
  | replace {lines : List Line} {t : Schema} (h : ofLines lines = .ok t) : Step s t

/-- What comes about by edits. -/
def Reached (s : Schema) : Prop := Relation.ReflTransGen Step .empty s

/-! ### Changing one declaration -/

/-- Changing a declaration adds none. -/
theorem has_modify {s : Schema} {id k : Nat} {change : Declaration → Declaration} :
    (s.modify id change).Has k ↔ s.Has k := by
  unfold Has modify
  rw [List.length_modify]

theorem has_of_isParent {s : Schema} {parent id : Nat} (h : s.IsParent parent id) : s.Has id := by
  obtain ⟨d, hd, -⟩ := parentOf_eq_some_iff.1 h
  exact lt_of_get? hd

/-- After a change, what stands at a number stood there before or is the changed declaration. -/
theorem get?_modify_cases {s : Schema} {id k : Nat} {change : Declaration → Declaration}
    {e : Declaration} (h : (s.modify id change).get? k = some e) :
    s.get? k = some e ∨ k = id ∧ ∃ d, s.get? id = some d ∧ change d = e := by
  rw [get?_modify] at h
  split at h
  · next heq =>
    subst heq
    exact .inr ⟨rfl, Option.map_eq_some_iff.1 h⟩
  · exact .inl h

section Modify
variable {s : Schema} {id : Nat} {change : Declaration → Declaration}
  (hparent : ∀ d, (change d).parent = d.parent)
include hparent

theorem parentOf_modify (k : Nat) : (s.modify id change).parentOf k = s.parentOf k := by
  unfold parentOf viewAt
  rw [get?_modify]
  by_cases hk : id = k
  · rw [if_pos hk]
    cases s.get? k with
    | none => rfl
    | some d => exact hparent d
  · rw [if_neg hk]

/-- A change that links to nothing new, or only to what fits. -/
theorem Grounded.modify (h : s.Grounded)
    (hchild : ∀ d, s.get? id = some d → ∀ c ∈ (change d).children, s.IsParent id c)
    (htarget : ∀ d, s.get? id = some d → ∀ f ∈ (change d).fields, s.Knows f) :
    (s.modify id change).Grounded where
  parent_lt hp := by
    rw [IsParent, parentOf_modify hparent] at hp
    exact h.parent_lt hp
  child he c hc := by
    rw [IsParent, parentOf_modify hparent]
    rcases get?_modify_cases he with he | ⟨rfl, d, hd, rfl⟩
    · exact h.child he c hc
    · exact hchild d hd c hc
  root k hk := by
    rw [has_modify, parentOf_modify hparent]
    exact h.root k hk
  target he f hf target ht := by
    rw [has_modify]
    rcases get?_modify_cases he with he | ⟨rfl, d, hd, rfl⟩
    · exact h.target he f hf target ht
    · exact htarget d hd f hf target ht

end Modify
end Schema

namespace Body

theorem children_mapFields (change : List Field → List Field) (body : Body) :
    (body.mapFields change).children = body.children := by
  cases body <;> rfl

theorem mem_fields_mapFields {change : List Field → List Field} {body : Body} {f : Field}
    (h : f ∈ (body.mapFields change).fields) : f ∈ change body.fields := by
  cases body with
  | message children fields => exact h
  | enumeration items => cases h

theorem fields_addChild (child : Nat) (body : Body) :
    (body.addChild child).fields = body.fields := by
  cases body <;> rfl

theorem mem_children_addChild {child c : Nat} {body : Body}
    (h : c ∈ (body.addChild child).children) : c ∈ body.children ∨ c = child := by
  cases body with
  | message _ _ => simpa [addChild, children] using h
  | enumeration items => cases h

theorem links_mapItems (change : List Item → List Item) (body : Body) :
    (body.mapItems change).children = body.children ∧ (body.mapItems change).fields = body.fields := by
  cases body <;> exact ⟨rfl, rfl⟩

end Body

namespace Schema
variable {s : Schema}

/-! ### What each edit keeps -/

/-- There is nothing in an empty schema to refer to. -/
theorem grounded_empty : empty.Grounded where
  parent_lt h := by cases h
  child h := by cases h
  root id h := by cases h
  target h := by cases h

namespace Grounded

/-- A new set of fields for one message. -/
theorem withMapFields (h : s.Grounded) (id : Nat) {change : List Field → List Field}
    (hfields : ∀ d, s.get? id = some d → ∀ f ∈ change d.fields, s.Knows f) :
    (s.modify id fun d => { d with body := d.body.mapFields change }).Grounded := by
  refine h.modify ?_ ?_ ?_
  · exact fun _ => rfl
  · intro d hd c hc
    rw [Declaration.children, Body.children_mapFields] at hc
    exact h.child hd c hc
  · intro d hd f hf
    exact hfields d hd f (Body.mem_fields_mapFields hf)

/-- A new declaration may name any parent that is there. -/
theorem declare (h : s.Grounded) {parent : Option Nat} (hparent : ∀ p ∈ parent, s.Has p)
    (name : String) (kind : Kind) : (s.declare parent name kind).Grounded := by
  have hnew : ∀ {id d}, (s.declare parent name kind).get? id = some d →
      s.get? id = some d ∨ id = s.declarations.length ∧ d = ⟨name, parent, .empty kind, .none⟩ := by
    intro id d hd
    unfold get? Schema.declare at hd
    rw [List.getElem?_append] at hd
    split at hd
    · exact .inl hd
    · rw [List.getElem?_singleton] at hd
      split at hd
      · exact .inr ⟨by omega, (Option.some.inj hd).symm⟩
      · cases hd
  have hkeep : ∀ {id d}, s.get? id = some d → (s.declare parent name kind).get? id = some d := by
    intro id d hd
    exact (List.getElem?_append_left (lt_of_get? hd)).trans hd
  have hhas : ∀ {id}, s.Has id → (s.declare parent name kind).Has id := by
    intro id hid
    have hlength : (s.declare parent name kind).declarations.length =
        s.declarations.length + 1 := List.length_append
    unfold Has at hid ⊢
    omega
  refine ⟨?_, ?_, ?_, ?_⟩
  · intro id p hp
    obtain ⟨d, hd, hdp⟩ := parentOf_eq_some_iff.1 hp
    rcases hnew hd with hd | ⟨rfl, rfl⟩
    · exact h.parent_lt (parentOf_eq_some_iff.2 ⟨d, hd, hdp⟩)
    · exact hparent p hdp
  · intro id d hd c hc
    rcases hnew hd with hd | ⟨rfl, rfl⟩
    · obtain ⟨e, he, hep⟩ := parentOf_eq_some_iff.1 (h.child hd c hc)
      exact parentOf_eq_some_iff.2 ⟨e, hkeep he, hep⟩
    · cases kind <;> cases hc
  · intro id hid
    obtain ⟨hin, hroot⟩ := h.root id hid
    obtain ⟨d, hd⟩ := exists_get? hin
    refine ⟨hhas hin, ?_⟩
    rw [parentOf, viewAt_of_get? hd] at hroot
    rw [parentOf, viewAt_of_get? (hkeep hd), hroot]
  · intro id d hd f hf target ht
    rcases hnew hd with hd | ⟨rfl, rfl⟩
    · exact hhas (h.target hd f hf target ht)
    · cases kind <;> cases hf

/-- A declaration is listed where it belongs, at any time and as often as one likes. -/
theorem adopt (h : s.Grounded) (id : Nat) : (s.adopt id).Grounded := by
  unfold Schema.adopt
  cases hd : s.get? id with
  | none => exact h
  | some d =>
    simp only
    cases hparent : d.parent with
    | none =>
      refine ⟨h.parent_lt, h.child, ?_, h.target⟩
      intro k hk
      rcases List.mem_append.1 hk with hk | hk
      · exact h.root k hk
      · rw [List.mem_singleton.1 hk]
        exact ⟨lt_of_get? hd, (viewAt_of_get? hd none Declaration.parent).trans hparent⟩
    | some parent =>
      refine h.modify ?_ ?_ ?_
      · exact fun _ => rfl
      · intro e he c hc
        rcases Body.mem_children_addChild hc with hc | rfl
        · exact h.child he c hc
        · exact parentOf_eq_some_iff.2 ⟨d, hd, hparent⟩
      · intro e he f hf
        rw [Declaration.fields, Body.fields_addChild] at hf
        exact h.target he f hf

/-- A field may refer to whatever is in the schema. -/
theorem addField (h : s.Grounded) (id : Nat) {field : Field} (hfield : s.Knows field) :
    (s.addField id field).Grounded := by
  refine h.withMapFields id fun d hd f hf => ?_
  rcases List.mem_append.1 hf with hf | hf
  · exact h.target hd f hf
  · rw [List.mem_singleton.1 hf]
    exact hfield

theorem addItem (h : s.Grounded) (id : Nat) (item : Item) : (s.addItem id item).Grounded := by
  refine h.modify ?_ ?_ ?_
  · exact fun _ => rfl
  · intro d hd c hc
    rw [Declaration.children, (Body.links_mapItems _ d.body).1] at hc
    exact h.child hd c hc
  · intro d hd f hf
    rw [Declaration.fields, (Body.links_mapItems _ d.body).2] at hf
    exact h.target hd f hf

theorem setFieldType (h : s.Grounded) (id position : Nat) {type : TypeRef}
    (htype : ∀ target ∈ type.target?, s.Has target) :
    (s.setFieldType id position type).Grounded := by
  refine h.withMapFields id fun d hd f hf => ?_
  obtain ⟨k, hk⟩ := List.mem_iff_getElem?.1 hf
  rw [List.getElem?_modify] at hk
  obtain ⟨old, hold, heq⟩ := Option.map_eq_some_iff.1 hk
  split at heq
  · rw [← heq]
    exact htype
  · rw [← heq]
    exact h.target hd old (List.mem_of_getElem? hold)

/-! ### Linking -/

theorem knows_refTo {s : Schema} (target : Nat) :
    ∀ found ∈ (s.refTo target).target?, s.Has found := by
  intro found hfound
  unfold refTo viewAt at hfound
  cases hd : s.get? target with
  | none => simp [hd, TypeRef.target?] at hfound
  | some d =>
    rw [hd] at hfound
    cases hkind : d.kind <;> simp only [hkind, TypeRef.target?, Option.mem_some_iff] at hfound
    all_goals exact hfound ▸ lt_of_get? hd

/-- A type that is looked up is one of the schema's own. -/
theorem knows_of_linkType {id : Nat} {f f' : Field} (hf : s.Knows f)
    (h : s.linkType id f = .ok f'.type) : s.Knows f' := by
  unfold linkType at h
  split at h
  · split at h
    · next target _ =>
      have htype : s.refTo target = f'.type := Except.ok.inj h
      unfold Knows
      rw [← htype]
      exact knows_refTo target
    · cases h
    · cases h
  · have htype : f.type = f'.type := Except.ok.inj h
    unfold Knows
    rw [← htype]
    exact hf

theorem assignNames (h : s.Grounded) (p : Prefixes) (id : Nat) :
    (s.assignNames p id).Grounded := by
  refine h.modify ?_ ?_ ?_
  · exact fun _ => rfl
  · exact fun d hd => h.child (d := d) hd
  · exact fun d hd => h.target (d := d) hd

theorem foldl_assignNames (h : s.Grounded) (p : Prefixes) (ids : List Nat) :
    (ids.foldl (Schema.assignNames p) s).Grounded := by
  induction ids generalizing s with
  | nil => exact h
  | cons id rest ih => exact ih (h.assignNames p id)

theorem withNames (h : s.Grounded) (p : Prefixes) : (s.withNames p).Grounded :=
  h.foldl_assignNames p s.listed

theorem knows_of_linkFields {id : Nat} {fields fields' : List Field}
    (hfields : ∀ f ∈ fields, s.Knows f) (h : s.linkFields id fields = .ok fields') :
    ∀ f ∈ fields', s.Knows f := by
  induction linkFields_eq_ok_iff.1 h with
  | nil => simp
  | cons hf hrest ih =>
    obtain ⟨hfirst, hothers⟩ := List.forall_mem_cons.1 hfields
    exact List.forall_mem_cons.2
      ⟨knows_of_linkType hfirst hf.1, ih hothers (linkFields_eq_ok_iff.2 hrest)⟩

/-- Resolving the fields of a message refers to declarations that were looked up, so they are
there. -/
theorem withFields (h : s.Grounded) {id : Nat} {fields : List Field}
    (hlink : s.linkFields id (s.fieldsOf id) = .ok fields) : (s.withFields id fields).Grounded := by
  refine h.withMapFields id fun d hd => knows_of_linkFields ?_ hlink
  intro f hf
  obtain ⟨e, he, hf⟩ := mem_fieldsOf.1 hf
  exact h.target he f hf

theorem linkAll (h : s.Grounded) (ids : List Nat) : (s.linkAll ids).schema.Grounded := by
  induction ids generalizing s with
  | nil => exact h
  | cons id rest ih =>
    rw [linkAll_cons]
    split
    · next hlink => exact ih (h.withFields hlink)
    · exact h

/-- **Linking keeps a schema grounded**, whether it comes to the end or not. -/
theorem link (h : s.Grounded) (p : Prefixes) : (s.link p).schema.Grounded :=
  (h.withNames p).linkAll s.listed

end Grounded

/-! ### Reading -/

/-- A forest without resolved types is grounded. -/
theorem IsForest.grounded (hs : s.IsForest)
    (hfields : ∀ {id d}, s.get? id = some d → ∀ f ∈ d.fields, f.AsDeclared) : s.Grounded where
  parent_lt h := (hs.isParent_lt h).1
  child hd c hc := (hs.mem_children_iff hd).1 hc
  root id hid := by
    obtain ⟨d, hd, hparent⟩ := hs.root id hid
    exact ⟨lt_of_get? hd, (viewAt_of_get? hd none Declaration.parent).trans hparent⟩
  target hd f hf target ht := by
    have htype : f.type = Field.initialType f.typeName := hfields hd f hf
    rw [htype, Field.initialType] at ht
    split at ht <;> cases ht

/-- So is every schema that is read. -/
theorem grounded_ofLines {lines : List Line} {s : Schema} (h : ofLines lines = .ok s) :
    s.Grounded := by
  obtain ⟨document, hdocument, rfl⟩ := ofLines_eq_ok_iff_document.1 h
  refine document.isForest.grounded ?_
  exact fun hd => Document.asDeclared hdocument _ (List.mem_of_getElem? hd)

/-- **Every edit keeps the links straight.** -/
theorem Grounded.step {s t : Schema} (h : s.Grounded) (hstep : s.Step t) : t.Grounded := by
  cases hstep with
  | declare parent name kind hparent => exact h.declare hparent name kind
  | adopt id => exact h.adopt id
  | setPackage package => exact ⟨h.parent_lt, h.child, h.root, h.target⟩
  | addField id field hfield => exact h.addField id hfield
  | addItem id item => exact h.addItem id item
  | setFieldType id position type htype => exact h.setFieldType id position htype
  | link p => exact h.link p
  | replace hlines => exact grounded_ofLines hlines

/-- The links are straight in every schema that comes about by edits. -/
theorem Reached.grounded {s : Schema} (h : s.Reached) : s.Grounded := by
  induction h with
  | refl => exact grounded_empty
  | tail _ hstep ih => exact ih.step hstep

end Schema
end SwiftWrap
