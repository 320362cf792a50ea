import SwiftWrap.Proofs.Linked
import Mathlib.Logic.Equiv.Defs

/-! Declarations under other numbers.

The number of a declaration depends on how many were opened before it, so the same block gets
other numbers behind other blocks. `Declaration.renumber` changes every number that a
declaration holds: its parent's, its children's, and those of its types.

`Schema.Renumbers` relates two schemas that differ in numbers, and in the order in which the
declarations at file scope are listed. Whatever is read from one can be read from the other
under the new numbers: the ways up and down, the tiers of a search, up to the order of the
last, and so its answers. Hence linking one succeeds if linking the other does, and the
linked schemas are related in the same way (`Renumbers.link`). -/
namespace SwiftWrap

/-! ### Changing numbers -/

/-- The reference under other numbers. -/
def TypeRef.renumber (number : Nat → Nat) : TypeRef → TypeRef
  | scalar type => scalar type
  | enumeration target => enumeration (number target)
  | message target => message (number target)
  | unresolved => unresolved

/-- The field with its type under other numbers. -/
def Field.renumber (number : Nat → Nat) (f : Field) : Field :=
  { f with type := f.type.renumber number }

/-- The body under other numbers. -/
def Body.renumber (number : Nat → Nat) : Body → Body
  | message children fields => message (children.map number) (fields.map (Field.renumber number))
  | enumeration items => enumeration items

/-- The declaration with every number in it changed. -/
def Declaration.renumber (number : Nat → Nat) (d : Declaration) : Declaration :=
  { d with parent := d.parent.map number, body := d.body.renumber number }

/-- Two changes of numbers are one. -/
theorem TypeRef.renumber_renumber (first second : Nat → Nat) (type : TypeRef) :
    (type.renumber first).renumber second = type.renumber (second ∘ first) := by
  cases type <;> rfl

theorem TypeRef.renumber_id (type : TypeRef) : type.renumber id = type := by
  cases type <;> rfl

theorem Field.renumber_renumber (first second : Nat → Nat) (f : Field) :
    (f.renumber first).renumber second = f.renumber (second ∘ first) := by
  simp only [renumber, TypeRef.renumber_renumber]

theorem Field.renumber_id (f : Field) : f.renumber id = f := by
  simp only [renumber, TypeRef.renumber_id]

/-- A field whose type has not been looked up holds no number. -/
theorem Field.AsDeclared.renumber {f : Field} (h : f.AsDeclared) (number : Nat → Nat) :
    f.renumber number = f := by
  have htype : f.type.renumber number = f.type := by
    rw [(h : f.type = _), Field.initialType]
    split <;> rfl
  rw [Field.renumber, htype]

namespace Declaration
variable (number : Nat → Nat) (d : Declaration)

@[simp] theorem renumber_name : (d.renumber number).name = d.name := rfl

@[simp] theorem renumber_parent : (d.renumber number).parent = d.parent.map number := rfl

@[simp] theorem renumber_names : (d.renumber number).names = d.names := rfl

@[simp] theorem renumber_kind : (d.renumber number).kind = d.kind := by
  obtain ⟨_, _, body, _⟩ := d
  cases body <;> rfl

@[simp] theorem renumber_children : (d.renumber number).children = d.children.map number := by
  obtain ⟨_, _, body, _⟩ := d
  cases body <;> rfl

@[simp] theorem renumber_fields :
    (d.renumber number).fields = d.fields.map (Field.renumber number) := by
  obtain ⟨_, _, body, _⟩ := d
  cases body <;> rfl

theorem renumber_renumber (second : Nat → Nat) :
    (d.renumber number).renumber second = d.renumber (second ∘ number) := by
  obtain ⟨name, parent, body, names⟩ := d
  have hfields : Field.renumber second ∘ Field.renumber number = Field.renumber (second ∘ number) :=
    funext (Field.renumber_renumber number second)
  cases body with
  | message children fields =>
    simp only [renumber, Body.renumber, Option.map_map, List.map_map, hfields]
  | enumeration items => simp only [renumber, Body.renumber, Option.map_map]

theorem renumber_id : d.renumber id = d := by
  obtain ⟨name, parent, body, names⟩ := d
  have hfields : Field.renumber id = id := funext Field.renumber_id
  cases body with
  | message children fields =>
    simp only [renumber, Body.renumber, Option.map_id, List.map_id, hfields, id_eq]
  | enumeration items => simp only [renumber, Body.renumber, Option.map_id, id_eq]

/-- What linking writes is apart from the numbers of the links. -/
theorem unlinked_renumber : (d.renumber number).unlinked = d.unlinked.renumber number := by
  obtain ⟨name, parent, body, names⟩ := d
  have hfields : Field.untyped ∘ Field.renumber number = Field.renumber number ∘ Field.untyped :=
    rfl
  cases body with
  | message children fields =>
    simp only [unlinked, renumber, Body.renumber, Body.mapFields, List.map_map, hfields]
  | enumeration items => rfl

end Declaration

/-! ### Forests -/

/-- A row of numbers is moved in one piece. -/
def MovesRow (number : Nat → Nat) (n m size : Nat) : Prop := ∀ k < size, number (n + k) = m + k

namespace MovesRow
variable {number : Nat → Nat} {n m a b : Nat}

theorem head (h : MovesRow number n m (1 + b)) : number n = m := h 0 (by omega)

/-- Where a row moves as a whole, so does its beginning. -/
theorem front (h : MovesRow number n m (a + b)) : MovesRow number n m a :=
  fun k hk => h k (by omega)

/-- And so does what is left of it. -/
theorem back (h : MovesRow number n m (a + b)) : MovesRow number (n + a) (m + a) b := by
  intro k hk
  rw [Nat.add_assoc, h (a + k) (by omega), Nat.add_assoc]

end MovesRow

namespace Forest

/-- A forest whose numbers are moved in one piece. -/
theorem numbers_renumber {f : Forest} {number : Nat → Nat} {n m : Nat}
    (h : MovesRow number n m f.size) : (f.numbers n).map number = f.numbers m := by
  induction f generalizing n m with
  | nil => rfl
  | message name fields nested rest _ ih =>
    have hrest := h.back
    rw [← Nat.add_assoc, ← Nat.add_assoc] at hrest
    rw [numbers, numbers, List.map_cons, ih hrest, h.front.head]
  | enumeration name items rest ih => rw [numbers, numbers, List.map_cons, ih h.back, h.head]

/-- A forest whose row moves is declared from its new number on. -/
theorem declarations_renumber {f : Forest} {number : Nat → Nat} {parent : Option Nat} {n m : Nat}
    (h : MovesRow number n m f.size)
    (hfields : ∀ d ∈ f.declarations parent n, ∀ field ∈ d.fields, field.AsDeclared) :
    (f.declarations parent n).map (Declaration.renumber number) =
      f.declarations (parent.map number) m := by
  induction f generalizing parent n m with
  | nil => rfl
  | message name fields nested rest ihnested ihrest =>
    obtain ⟨hown, hothers⟩ := List.forall_mem_cons.1 hfields
    obtain ⟨hinner, houter⟩ := List.forall_mem_append.1 hothers
    have hrest := h.back
    rw [← Nat.add_assoc, ← Nat.add_assoc] at hrest
    have hsame : fields.map (Field.renumber number) = fields :=
      (List.map_congr_left fun f hf => (hown f hf).renumber number).trans (List.map_id fields)
    simp only [declarations, List.map_cons, List.map_append, ihnested h.front.back hinner,
      ihrest hrest houter, Declaration.renumber, Body.renumber, numbers_renumber h.front.back,
      hsame, Option.map_some, h.front.head]
  | enumeration name items rest ih =>
    obtain ⟨-, houter⟩ := List.forall_mem_cons.1 hfields
    simp only [declarations, List.map_cons, ih h.back houter, Declaration.renumber, Body.renumber]

end Forest

/-! ### Schemas -/

/-- Answers of a search that differ in numbers, and in the order of the candidates. -/
inductive Resolution.Renumbers (number : Nat → Nat) : Resolution → Resolution → Prop where
  | found (id : Nat) : Renumbers number (.found id) (.found (number id))
  | ambiguous {candidates candidates' : List Nat} (h : candidates'.Perm (candidates.map number)) :
      Renumbers number (.ambiguous candidates) (.ambiguous candidates')
  | missing : Renumbers number .missing .missing

theorem Resolution.Renumbers.eq_found {number : Nat → Nat} {id : Nat} {answer : Resolution}
    (h : (Resolution.found id).Renumbers number answer) : answer = .found (number id) := by
  cases h
  rfl

/-- Answers that rest on renumbered matches, in any order, are renumbered answers. -/
theorem Resolution.renumbers_ofMatches {number : Nat → Nat} {c c' : List Nat}
    (h : c'.Perm (c.map number)) : (ofMatches c).Renumbers number (ofMatches c') := by
  match c with
  | [] =>
    rw [List.map_nil, List.perm_nil] at h
    subst h
    exact .missing
  | [x] =>
    rw [List.map_singleton, List.perm_singleton] at h
    subst h
    exact .found x
  | x :: y :: rest =>
    match c' with
    | [] => exact absurd h.length_eq (by simp)
    | [_] => exact absurd h.length_eq (by simp)
    | _ :: _ :: _ => exact .ambiguous h

namespace Schema

/-- Two forests with the same declarations under other numbers. Those at file scope may be listed
in another order. -/
structure Renumbers (s : Schema) (number : Equiv.Perm Nat) (t : Schema) : Prop where
  source : s.IsForest
  target : t.IsForest
  get? : ∀ id, t.get? (number id) = (s.get? id).map (Declaration.renumber number)
  roots : t.roots.Perm (s.roots.map number)

/-- Linking succeeds if the fields of every declaration can be linked. -/
theorem link_ok_iff_linkFields {s : Schema} (hs : s.IsForest) {p : Prefixes} :
    (s.link p).problem = none ↔
      ∀ id < s.declarations.length, ∃ fields, s.linkFields id (s.fieldsOf id) = .ok fields := by
  constructor
  · exact fun h id hid => ⟨_, fieldsOf_link hs p h hid⟩
  · intro h
    cases hproblem : (s.link p).problem with
    | none => rfl
    | some problem =>
      obtain ⟨before, id, after, hids, -, herror⟩ :=
        exists_of_linkAll_problem (nodup_listed hs) hproblem
      rw [linkFields_withNames] at herror
      obtain ⟨fields, hfields⟩ := h id (hs.mem_listed.1 (by simp [hids]))
      rw [hfields] at herror
      cases herror

namespace Renumbers
variable {s t u : Schema} {number : Equiv.Perm Nat}

/-- Numbers can be changed back. -/
theorem symm (h : s.Renumbers number t) : t.Renumbers number.symm s where
  source := h.target
  target := h.source
  get? k := by
    have hback : Declaration.renumber number.symm ∘ Declaration.renumber number = id := by
      funext d
      rw [Function.comp_apply, Declaration.renumber_renumber, number.symm_comp_self,
        Declaration.renumber_id]
      rfl
    have hk := h.get? (number.symm k)
    rw [number.apply_symm_apply] at hk
    rw [hk, Option.map_map, hback, Option.map_id]
    rfl
  roots := by
    have hroots := (h.roots.map number.symm).symm
    rwa [List.map_map, number.symm_comp_self, List.map_id] at hroots

theorem trans {number' : Equiv.Perm Nat} (h : s.Renumbers number t) (h' : t.Renumbers number' u) :
    s.Renumbers (number.trans number') u where
  source := h.source
  target := h'.target
  get? id := by
    have hboth : Declaration.renumber number' ∘ Declaration.renumber number =
        Declaration.renumber (number.trans number') :=
      funext (Declaration.renumber_renumber number · number')
    rw [Equiv.trans_apply, h'.get?, h.get?, Option.map_map, hboth]
  roots := by
    have hroots := h'.roots.trans (h.roots.map number')
    rwa [List.map_map] at hroots

/-! ### What is read under other numbers -/

/-- A view that does not look at numbers sees the same. -/
theorem viewAt (h : s.Renumbers number t) (id : Nat) (otherwise : α) {view view' : Declaration → α}
    (hview : ∀ d, view' (d.renumber number) = view d) :
    t.viewAt (number id) otherwise view' = s.viewAt id otherwise view := by
  unfold Schema.viewAt
  rw [h.get?]
  cases s.get? id with
  | none => rfl
  | some d => exact hview d

theorem nameOf (h : s.Renumbers number t) (id : Nat) : t.nameOf (number id) = s.nameOf id :=
  h.viewAt id "" (Declaration.renumber_name number)

theorem parentOf (h : s.Renumbers number t) (id : Nat) :
    t.parentOf (number id) = (s.parentOf id).map number := by
  unfold Schema.parentOf Schema.viewAt
  rw [h.get?]
  cases s.get? id <;> rfl

theorem fieldsOf (h : s.Renumbers number t) (id : Nat) :
    t.fieldsOf (number id) = (s.fieldsOf id).map (Field.renumber number) := by
  unfold Schema.fieldsOf Schema.viewAt
  rw [h.get?]
  cases s.get? id with
  | none => rfl
  | some d => exact Declaration.renumber_fields number d

/-- The way up meets the same declarations under their new numbers. -/
theorem enclosing (h : s.Renumbers number t) (id : Nat) :
    t.enclosing (number id) = (s.enclosing id).map number := by
  induction id using Nat.strongRecOn with
  | _ id ih =>
    rw [h.target.ascending.enclosing_eq, h.source.ascending.enclosing_eq, h.parentOf]
    cases hparent : s.parentOf id with
    | none => rfl
    | some parent =>
      exact congrArg (number parent :: ·) (ih parent (h.source.isParent_lt hparent).1)

theorem nameChain (h : s.Renumbers number t) (id : Nat) :
    t.nameChain (number id) = s.nameChain id := by
  have hnames : t.nameOf ∘ number = s.nameOf := funext h.nameOf
  rw [Schema.nameChain, h.enclosing, ← List.map_cons, List.map_map, hnames, Schema.nameChain]

/-- A way down that makes the same of every declaration and its counterpart. -/
theorem collect (h : s.Renumbers number t) {node : Nat → Declaration → List α → List α}
    {node' : Nat → Declaration → List β → List β} {f : α → β}
    (hnode : ∀ id d below, s.get? id = some d →
      node' (number id) (d.renumber number) (below.map f) = (node id d below).map f) (id : Nat) :
    t.collect node' (number id) = (s.collect node id).map f := by
  induction id using s.downward_induction with
  | step id ih =>
    have hget := h.get? id
    cases hd : s.get? id with
    | none =>
      rw [hd] at hget
      rw [collect_of_none hget, collect_of_none hd]
      rfl
    | some d =>
      rw [hd] at hget
      rw [h.target.ascending.collect_eq hget, h.source.ascending.collect_eq hd,
        ← hnode id d _ hd, List.map_flatMap, Declaration.renumber_children, List.flatMap_map]
      congr 1
      refine List.flatMap_congr fun c hc => ih (lt_of_get? hd) c ?_
      exact (h.source.isParent_lt ((h.source.mem_children_iff hd).1 hc)).1

/-- And so does the way down, in the same order. -/
theorem below (h : s.Renumbers number t) (id : Nat) :
    t.below (number id) = (s.below id).map number := by
  have hsubtree : t.subtree (number id) = (s.subtree id).map number :=
    h.collect (f := number) (fun _ _ _ _ => rfl) id
  rw [Schema.below, Schema.below, hsubtree, List.map_tail]

/-- What stands beside a declaration may come in another order. -/
theorem beside (h : s.Renumbers number t) (id : Nat) :
    (t.beside (number id)).Perm ((s.beside id).map number) := by
  rw [beside_eq, beside_eq, h.parentOf]
  cases s.parentOf id with
  | none => exact h.roots
  | some parent =>
    have hchildren : t.viewAt (number parent) [] Declaration.children =
        (s.viewAt parent [] Declaration.children).map number := by
      unfold Schema.viewAt
      rw [h.get?]
      cases s.get? parent with
      | none => rfl
      | some d => exact Declaration.renumber_children number d
    exact .of_eq hchildren

/-! ### Searches -/

theorem filter_perm {isMatch isMatch' : Nat → Bool} {c c' : List Nat}
    (hmatch : ∀ id, isMatch' (number id) = isMatch id) (h : c'.Perm (c.map number)) :
    (c'.filter isMatch').Perm ((c.filter isMatch).map number) := by
  have hsame : isMatch' ∘ number = isMatch := funext hmatch
  have hfilter := h.filter isMatch'
  rwa [List.filter_map, hsame] at hfilter

theorem tiers (h : s.Renumbers number t) (id : Nat) :
    List.Forall₂ (fun tier tier' => tier'.Perm (tier.map number)) (s.tiers id)
      (t.tiers (number id)) := by
  refine .cons (.of_eq (h.below id)) (.cons (h.beside id) ?_)
  rw [h.enclosing, List.map_map, List.forall₂_map_left_iff, List.forall₂_map_right_iff,
    List.forall₂_same]
  intro a _
  have hother (x : Nat) : decide (number x ≠ number a) = decide (x ≠ a) :=
    decide_eq_decide.2 number.injective.ne_iff
  exact (filter_perm hother (h.beside a)).cons (number a)

/-- The first tier with a match is the same, and so is how many matches it has. -/
theorem firstMatch {isMatch isMatch' : Nat → Bool} {tiers tiers' : List (List Nat)}
    (hmatch : ∀ id, isMatch' (number id) = isMatch id)
    (h : List.Forall₂ (fun tier tier' => tier'.Perm (tier.map number)) tiers tiers') :
    (firstMatch isMatch tiers).Renumbers number (firstMatch isMatch' tiers') := by
  induction h with
  | nil => exact .missing
  | @cons tier tier' _ _ htier _ ih =>
    have hfilter := filter_perm hmatch htier
    have hempty : tier'.filter isMatch' = [] ↔ tier.filter isMatch = [] := by
      rw [← List.length_eq_zero_iff, hfilter.length_eq, List.length_map, List.length_eq_zero_iff]
    rw [firstMatch_cons, firstMatch_cons]
    by_cases hnone : tier.filter isMatch = []
    · rw [if_pos hnone, if_pos (hempty.2 hnone)]
      exact ih
    · rw [if_neg hnone, if_neg (mt hempty.1 hnone)]
      exact Resolution.renumbers_ofMatches hfilter

/-- A search has the same answer under the new numbers. -/
theorem resolve (h : s.Renumbers number t) (id : Nat) (name : String) :
    (s.resolve id name).Renumbers number (t.resolve (number id) name) := by
  refine firstMatch (fun d => ?_) (h.tiers id)
  rw [h.nameOf]

theorem resolve_found (h : s.Renumbers number t) {id target : Nat} {name : String}
    (hfound : s.resolve id name = .found target) :
    t.resolve (number id) name = .found (number target) := by
  have hanswer := h.resolve id name
  rw [hfound] at hanswer
  exact hanswer.eq_found

/-! ### Linking -/

theorem refTo (h : s.Renumbers number t) (target : Nat) :
    t.refTo (number target) = (s.refTo target).renumber number := by
  unfold Schema.refTo Schema.viewAt
  rw [h.get?]
  cases s.get? target with
  | none => rfl
  | some d =>
    simp only [Option.map_some, Declaration.renumber_kind]
    cases d.kind <;> rfl

/-- A field that links, links to the renumbered target. -/
theorem linkType (h : s.Renumbers number t) {id : Nat} {f : Field} {type : TypeRef}
    (hlink : s.linkType id f = .ok type) :
    t.linkType (number id) (f.renumber number) = .ok (type.renumber number) := by
  unfold Schema.linkType at hlink ⊢
  have htype : (f.renumber number).type = f.type.renumber number := rfl
  have hname : (f.renumber number).typeName = f.typeName := rfl
  rw [htype, hname]
  cases hf : f.type with
  | unresolved =>
    rw [hf] at hlink
    cases hresolve : s.resolve id f.typeName with
    | found target =>
      rw [hresolve] at hlink
      cases hlink
      rw [← h.refTo target]
      simp only [TypeRef.renumber, h.resolve_found hresolve]
    | ambiguous candidates =>
      rw [hresolve] at hlink
      cases hlink
    | missing =>
      rw [hresolve] at hlink
      cases hlink
  | _ =>
    rw [hf] at hlink
    cases hlink
    rfl

theorem linkFields (h : s.Renumbers number t) {id : Nat} {fields fields' : List Field}
    (hlink : s.linkFields id fields = .ok fields') :
    t.linkFields (number id) (fields.map (Field.renumber number)) =
      .ok (fields'.map (Field.renumber number)) := by
  rw [linkFields_eq_ok_iff] at hlink ⊢
  rw [List.forall₂_map_left_iff, List.forall₂_map_right_iff]
  exact hlink.imp fun f f' hf => ⟨h.linkType hf.1, hf.2⟩

/-- Linking succeeds for the one schema if it does for the other. -/
theorem link_ok (h : s.Renumbers number t) {p : Prefixes} (hok : (s.link p).problem = none) :
    (t.link p).problem = none := by
  rw [link_ok_iff_linkFields h.source] at hok
  rw [link_ok_iff_linkFields h.target]
  intro k hk
  obtain ⟨e, he⟩ := exists_get? hk
  have hget := h.symm.get? k
  rw [he] at hget
  obtain ⟨fields, hfields⟩ := hok (number.symm k) (lt_of_get? hget)
  have hlink := h.linkFields hfields
  rw [← h.fieldsOf, number.apply_symm_apply] at hlink
  exact ⟨_, hlink⟩

/-- Linking changes nothing of what is the same but for numbers. -/
theorem exists_linked (h : s.Renumbers number t) {p : Prefixes} {id : Nat} {e : Declaration}
    (he : (s.link p).schema.get? id = some e) : ∃ e', (t.link p).schema.get? (number id) = some e' ∧
      e'.unlinked = (e.renumber number).unlinked := by
  obtain ⟨d, hd, heq⟩ := exists_unlinked_eq (unlinked_link s p) he
  have hget := h.get? id
  rw [hd] at hget
  obtain ⟨e', he', heq'⟩ := exists_unlinked_eq (unlinked_link t p).symm hget
  refine ⟨e', he', heq'.trans ?_⟩
  rw [Declaration.unlinked_renumber, heq, Declaration.unlinked_renumber]

/-- Declarations get the same names for generated code, since a name depends on chains alone. The
induction is on the number: a path goes on from the parent's. -/
theorem names (h : s.Renumbers number t) {p : Prefixes} {id : Nat} {e e' : Declaration}
    (he : (s.link p).schema.get? id = some e)
    (he' : (t.link p).schema.get? (number id) = some e') : e'.names = e.names := by
  induction id using Nat.strongRecOn generalizing e e' with
  | _ id ih =>
    obtain ⟨e'', he'', hunlinked⟩ := h.exists_linked he
    rw [he'] at he''
    cases he''
    have hparent : e'.parent = e.parent.map number := by
      rw [← Declaration.unlinked_parent, hunlinked]
      rfl
    have hkind : e'.kind = e.kind := by
      rw [← Declaration.unlinked_kind, hunlinked, Declaration.unlinked_kind,
        Declaration.renumber_kind]
    have hchain : (t.link p).schema.nameChain (number id) = (s.link p).schema.nameChain id := by
      rw [nameChain_of_unlinked_eq (unlinked_link t p), h.nameChain,
        nameChain_of_unlinked_eq (unlinked_link s p)]
    have hpath (wrapper : String) : (t.link p).schema.pathUnder e'.parent wrapper =
        (s.link p).schema.pathUnder e.parent wrapper := by
      rw [hparent]
      cases hq : e.parent with
      | none => rfl
      | some q =>
        have hforest := h.source.of_unlinked_eq (unlinked_link s p)
        obtain ⟨hlt, d, hd⟩ := hforest.isParent_lt (parentOf_eq_some_iff.2 ⟨e, he, hq⟩)
        obtain ⟨d', hd', -⟩ := h.exists_linked hd
        simp only [pathUnder, Option.map_some, pathOf, viewAt_of_get? hd, viewAt_of_get? hd',
          ih q hlt hd hd']
    rw [names_link h.source p he, names_link h.target p he', namesFor, namesFor, hchain, hkind,
      hpath]

/-- **Linking respects a change of numbers.** -/
theorem link (h : s.Renumbers number t) {p : Prefixes} (hok : (s.link p).problem = none) :
    (s.link p).schema.Renumbers number (t.link p).schema where
  source := h.source.of_unlinked_eq (unlinked_link s p)
  target := h.target.of_unlinked_eq (unlinked_link t p)
  get? id := by
    cases he : (s.link p).schema.get? id with
    | none =>
      have hs := (s.link p).schema.get?_unlinked id
      have ht := (t.link p).schema.get?_unlinked (number id)
      rw [unlinked_link, get?_unlinked, he, Option.map_none, Option.map_eq_none_iff] at hs
      rw [unlinked_link, get?_unlinked, h.get?, hs] at ht
      exact Option.map_eq_none_iff.1 ht.symm
    | some e =>
      obtain ⟨e', he', hunlinked⟩ := h.exists_linked he
      obtain ⟨d, hd, -⟩ := exists_unlinked_eq (unlinked_link s p) he
      have hget := h.get? id
      rw [hd] at hget
      have hfields := h.linkFields (fieldsOf_link h.source p hok (lt_of_get? hd))
      rw [← h.fieldsOf, fieldsOf_link h.target p (h.link_ok hok) (lt_of_get? hget)] at hfields
      have hsame : e'.fields = (e.renumber number).fields := by
        have := Except.ok.inj hfields
        rwa [Schema.fieldsOf, Schema.fieldsOf, viewAt_of_get? he, viewAt_of_get? he',
          ← Declaration.renumber_fields] at this
      have hnames : e'.names = e.names := h.names he he'
      rw [he']
      exact congrArg some (Declaration.eq_of_unlinked hunlinked hsame hnames)
  roots := by
    rw [roots_of_unlinked_eq (unlinked_link s p), roots_of_unlinked_eq (unlinked_link t p)]
    exact h.roots

end Renumbers
end Schema
end SwiftWrap
