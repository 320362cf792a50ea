import SwiftWrap.Schema.Link
import SwiftWrap.Proofs.Forest

/-! What linking leaves alone.

Every way through a schema and every search in it reads only the names of declarations and the
links between them. So nothing else in the declarations makes a difference to it
(`collect_changed`, `resolve_changed`).

Linking writes two things: the names of declarations for generated code, and the types of
fields. `Schema.unlinked` is a schema without both, in which everything is found as before. So one
declaration is linked as if none had been linked before it.

Linking changes nothing of the rest, whether it succeeds or not (`unlinked_link`). -/
namespace SwiftWrap

/-- The field without its type. -/
def Field.untyped (f : Field) : Field := { f with type := .unresolved }

namespace Declaration

/-- The declaration without its names for generated code and without the types of its fields. -/
def unlinked (d : Declaration) : Declaration :=
  { d with names := .none, body := d.body.mapFields (·.map Field.untyped) }

/-- A change of declarations that leaves alone what they are called and how they are linked. -/
structure KeepsLinks (change : Declaration → Declaration) : Prop where
  name : ∀ d, (change d).name = d.name
  parent : ∀ d, (change d).parent = d.parent
  kind : ∀ d, (change d).kind = d.kind
  children : ∀ d, (change d).children = d.children

@[simp] theorem unlinked_name (d : Declaration) : d.unlinked.name = d.name := rfl

@[simp] theorem unlinked_parent (d : Declaration) : d.unlinked.parent = d.parent := rfl

@[simp] theorem unlinked_kind (d : Declaration) : d.unlinked.kind = d.kind := by
  obtain ⟨_, _, body, _⟩ := d
  cases body <;> rfl

@[simp] theorem unlinked_children (d : Declaration) : d.unlinked.children = d.children := by
  obtain ⟨_, _, body, _⟩ := d
  cases body <;> rfl

/-- Taking a declaration's names and types away leaves its links. -/
theorem keepsLinks_unlinked : KeepsLinks unlinked :=
  ⟨unlinked_name, unlinked_parent, unlinked_kind, unlinked_children⟩

end Declaration

namespace Schema

/-- The schema with every declaration changed. -/
def changed (s : Schema) (change : Declaration → Declaration) : Schema :=
  { s with declarations := s.declarations.map change }

/-- The schema without what linking writes. -/
def unlinked (s : Schema) : Schema :=
  { s with declarations := s.declarations.map Declaration.unlinked }

/-! ### What reads only names and links -/

/-- A change everywhere changes each declaration where it is. -/
theorem get?_changed (s : Schema) (change : Declaration → Declaration) (id : Nat) :
    (s.changed change).get? id = (s.get? id).map change :=
  List.getElem?_map ..

/-- A view that a change leaves alone sees the same in the changed schema. -/
theorem viewAt_changed (s : Schema) {change : Declaration → Declaration} (id : Nat) (otherwise : α)
    {view : Declaration → α} (h : ∀ d, view (change d) = view d) :
    (s.changed change).viewAt id otherwise view = s.viewAt id otherwise view := by
  unfold viewAt
  rw [get?_changed]
  cases s.get? id with
  | none => rfl
  | some d => exact h d

section Changed
variable {change : Declaration → Declaration} (h : Declaration.KeepsLinks change) (s : Schema)
include h

theorem nameOf_changed (id : Nat) : (s.changed change).nameOf id = s.nameOf id :=
  s.viewAt_changed id "" h.name

theorem parentOf_changed (id : Nat) : (s.changed change).parentOf id = s.parentOf id :=
  s.viewAt_changed id none h.parent

/-- A way down on which the same is made of every declaration. -/
theorem collect_changed {node node' : Nat → Declaration → List α → List α}
    (hnode : ∀ id d below, node' id (change d) below = node id d below) (id : Nat) :
    (s.changed change).collect node' id = s.collect node id := by
  induction id using s.downward_induction with
  | step id ih =>
    have hget := s.get?_changed change id
    cases hd : s.get? id with
    | none =>
      rw [hd] at hget
      rw [collect_of_none hd, collect_of_none hget]
    | some d =>
      rw [hd] at hget
      rw [collect_of_get? hd, collect_of_get? hget, hnode, h.children]
      congr 1
      refine List.flatMap_congr fun c _ => ?_
      split
      · next hlt => exact ih (lt_of_get? hd) c hlt
      · rfl

theorem subtree_changed (id : Nat) : (s.changed change).subtree id = s.subtree id :=
  s.collect_changed h (fun _ _ _ => rfl) id

/-- A change that keeps links keeps the way through the schema. -/
theorem listed_changed : (s.changed change).listed = s.listed :=
  List.flatMap_congr fun root _ => s.subtree_changed h root

theorem beside_changed (id : Nat) : (s.changed change).beside id = s.beside id := by
  rw [beside_eq, beside_eq, s.parentOf_changed h]
  cases s.parentOf id with
  | none => rfl
  | some parent => exact s.viewAt_changed parent [] h.children

theorem enclosing_changed (id : Nat) : (s.changed change).enclosing id = s.enclosing id := by
  induction id using Nat.strongRecOn with
  | _ id ih =>
    have hparent : (s.changed change).viewAt id none Declaration.parent =
        s.viewAt id none Declaration.parent := s.parentOf_changed h id
    rw [enclosing, enclosing, hparent]
    split
    · rfl
    · next parent _ =>
      split
      · next hlt => rw [ih parent hlt]
      · rfl

/-- The names that lead to a declaration stay, since names and parents do. -/
theorem nameChain_changed (id : Nat) : (s.changed change).nameChain id = s.nameChain id := by
  rw [nameChain, nameChain, s.enclosing_changed h, funext (s.nameOf_changed h)]

/-- The candidates for a name stay the same, tier by tier. -/
theorem tiers_changed (id : Nat) : (s.changed change).tiers id = s.tiers id := by
  simp only [tiers, below, s.subtree_changed h, s.beside_changed h, s.enclosing_changed h]

/-- **So every name refers to what it referred to.** -/
theorem resolve_changed (id : Nat) (name : String) :
    (s.changed change).resolve id name = s.resolve id name := by
  simp only [resolve, s.tiers_changed h, s.nameOf_changed h]

theorem refTo_changed (target : Nat) : (s.changed change).refTo target = s.refTo target := by
  unfold refTo
  exact s.viewAt_changed target _ fun d => by rw [h.kind]

theorem linkType_changed (id : Nat) (f : Field) :
    (s.changed change).linkType id f = s.linkType id f := by
  simp only [linkType, s.resolve_changed h, s.refTo_changed h, funext (s.nameChain_changed h)]

/-- What becomes of fields depends on nothing that such a change can touch, problems included.
-/
theorem linkFields_changed (id : Nat) (fields : List Field) :
    (s.changed change).linkFields id fields = s.linkFields id fields := by
  induction fields with
  | nil => rfl
  | cons f rest ih => rw [linkFields, linkFields, s.linkType_changed h, ih]

end Changed

section Unlinked
variable (s : Schema)

theorem get?_unlinked (id : Nat) : s.unlinked.get? id = (s.get? id).map Declaration.unlinked :=
  s.get?_changed _ id

theorem parentOf_unlinked (id : Nat) : s.unlinked.parentOf id = s.parentOf id :=
  s.parentOf_changed Declaration.keepsLinks_unlinked id

/-- Linking can go by the lists of the schema before it or after it. -/
theorem listed_unlinked : s.unlinked.listed = s.listed :=
  s.listed_changed Declaration.keepsLinks_unlinked

/-- A way down that makes nothing of names and types. -/
theorem collect_unlinked {node : Nat → Declaration → List α → List α}
    (h : ∀ id d below, node id d.unlinked below = node id d below) (id : Nat) :
    s.unlinked.collect node id = s.collect node id :=
  s.collect_changed Declaration.keepsLinks_unlinked h id

theorem nameChain_unlinked (id : Nat) : s.unlinked.nameChain id = s.nameChain id :=
  s.nameChain_changed Declaration.keepsLinks_unlinked id

/-- Nothing is looked up in what linking puts in. -/
theorem resolve_unlinked (id : Nat) (name : String) :
    s.unlinked.resolve id name = s.resolve id name :=
  s.resolve_changed Declaration.keepsLinks_unlinked id name

/-- So the types of fields can be resolved before or after others are. -/
theorem linkFields_unlinked (id : Nat) (fields : List Field) :
    s.unlinked.linkFields id fields = s.linkFields id fields :=
  s.linkFields_changed Declaration.keepsLinks_unlinked id fields

end Unlinked

/-- Schemas that differ in names and types only have the same declarations up to that. -/
theorem exists_get?_of_unlinked_eq {s t : Schema} (h : t.unlinked = s.unlinked) {id : Nat}
    {d : Declaration} (hd : s.get? id = some d) :
    ∃ e, t.get? id = some e ∧ e.name = d.name ∧ e.kind = d.kind := by
  have hget := t.get?_unlinked id
  rw [h, get?_unlinked, hd] at hget
  obtain ⟨e, he, heq⟩ := Option.map_eq_some_iff.1 hget.symm
  refine ⟨e, he, ?_, ?_⟩
  · rw [← Declaration.unlinked_name, heq, Declaration.unlinked_name]
  · rw [← Declaration.unlinked_kind, heq, Declaration.unlinked_kind]

/-- Schemas that differ in names and types alone give the same answers. -/
theorem resolve_of_unlinked_eq {s t : Schema} (h : t.unlinked = s.unlinked) (id : Nat)
    (name : String) : t.resolve id name = s.resolve id name := by
  rw [← resolve_unlinked, h, resolve_unlinked]

/-! ### What each step leaves alone -/

/-- A change of one declaration that keeps the rest of it. -/
theorem unlinked_modify {s : Schema} {id : Nat} {change : Declaration → Declaration}
    (h : ∀ d, s.get? id = some d → (change d).unlinked = d.unlinked) :
    (s.modify id change).unlinked = s.unlinked := by
  have hdeclarations : (s.declarations.modify id change).map Declaration.unlinked =
      s.declarations.map Declaration.unlinked := by
    apply List.ext_getElem?
    intro k
    rw [List.getElem?_map, List.getElem?_map, List.getElem?_modify]
    split
    · next hk =>
      subst hk
      cases hd : s.declarations[id]? with
      | none => rfl
      | some d => exact congrArg some (h d hd)
    · simp
  rw [unlinked, modify, hdeclarations, unlinked]

/-- Naming a declaration changes nothing but names. -/
theorem unlinked_assignNames (p : Prefixes) (s : Schema) (id : Nat) :
    (s.assignNames p id).unlinked = s.unlinked :=
  unlinked_modify fun _ _ => rfl

theorem unlinked_foldl_assignNames (p : Prefixes) (s : Schema) (ids : List Nat) :
    (ids.foldl (assignNames p) s).unlinked = s.unlinked := by
  induction ids generalizing s with
  | nil => rfl
  | cons id rest ih => rw [List.foldl_cons, ih, unlinked_assignNames]

/-- Nor does naming all of them. -/
theorem unlinked_withNames (s : Schema) (p : Prefixes) : (s.withNames p).unlinked = s.unlinked :=
  unlinked_foldl_assignNames p s s.listed

end Schema

/-- Two fields that differ in their types alone become equal when one gets the type of the
other. -/
theorem Field.eq_of_untyped {f f' : Field} (h : f'.untyped = f.untyped) :
    { f with type := f'.type } = f' := by
  obtain ⟨name, index, cardinality, typeName, default, type⟩ := f
  cases f'
  simp_all [untyped]

namespace Schema

/-- Linking fields succeeds if every type is found, and sets nothing but the types. -/
theorem linkFields_eq_ok_iff {s : Schema} {id : Nat} {fields fields' : List Field} :
    s.linkFields id fields = .ok fields' ↔
      List.Forall₂ (fun f f' => s.linkType id f = .ok f'.type ∧ f'.untyped = f.untyped)
        fields fields' := by
  induction fields generalizing fields' with
  | nil =>
    constructor
    · intro h
      cases h
      exact .nil
    · intro h
      cases h
      rfl
  | cons f rest ih =>
    constructor
    · intro h
      rw [linkFields] at h
      cases htype : s.linkType id f with
      | error problem =>
        rw [htype] at h
        cases h
      | ok type =>
        cases hrest : s.linkFields id rest with
        | error problem =>
          rw [htype, hrest] at h
          cases h
        | ok rest' =>
          rw [htype, hrest] at h
          cases h
          exact .cons ⟨htype, rfl⟩ (ih.1 hrest)
    · intro h
      cases h with
      | cons hf hrest =>
        rw [linkFields, hf.1, ih.2 hrest, ← Field.eq_of_untyped hf.2]
        rfl

/-- Resolving fields changes nothing but their types. -/
theorem untyped_linkFields {s : Schema} {id : Nat} {fields fields' : List Field}
    (h : s.linkFields id fields = .ok fields') :
    fields'.map Field.untyped = fields.map Field.untyped := by
  have hall := linkFields_eq_ok_iff.1 h
  clear h
  induction hall with
  | nil => rfl
  | cons hf _ ih => rw [List.map_cons, List.map_cons, hf.2, ih]

/-- The fields of a message; an enum has none. -/
def fieldsOf (s : Schema) (id : Nat) : List Field := s.viewAt id [] Declaration.fields

/-- The schema with the fields of one message replaced. -/
def withFields (s : Schema) (id : Nat) (fields : List Field) : Schema :=
  s.modify id fun d => { d with body := d.body.mapFields fun _ => fields }

theorem unlinked_withFields {s : Schema} {id : Nat} {fields : List Field}
    (h : s.linkFields id (s.fieldsOf id) = .ok fields) :
    (s.withFields id fields).unlinked = s.unlinked := by
  apply unlinked_modify
  intro d hd
  rw [fieldsOf, viewAt_of_get? hd] at h
  have huntyped := untyped_linkFields h
  obtain ⟨name, parent, body, names⟩ := d
  cases body with
  | message children old =>
    show Declaration.mk _ _ (.message children (fields.map Field.untyped)) _ = _
    rw [huntyped]
    rfl
  | enumeration items => rfl

/-- The first declaration decides whether linking goes on. -/
theorem linkAll_cons (s : Schema) (id : Nat) (rest : List Nat) : s.linkAll (id :: rest) =
    match s.linkFields id (s.fieldsOf id) with
    | .ok fields => (s.withFields id fields).linkAll rest
    | .error problem => ⟨s, some problem⟩ := rfl

/-- Linking changes nothing but types, whether it comes to the end or not. -/
theorem unlinked_linkAll (s : Schema) (ids : List Nat) :
    (s.linkAll ids).schema.unlinked = s.unlinked := by
  induction ids generalizing s with
  | nil => rfl
  | cons id rest ih =>
    rw [linkAll_cons]
    split
    · next fields hfields => rw [ih, unlinked_withFields hfields]
    · rfl

/-- **Linking changes names and types only**, also when it fails. -/
theorem unlinked_link (s : Schema) (p : Prefixes) : (s.link p).schema.unlinked = s.unlinked := by
  rw [link, unlinked_linkAll, unlinked_withNames]

end Schema
end SwiftWrap
