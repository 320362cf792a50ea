import SwiftWrap.Proofs.FixedForm
import SwiftWrap.Proofs.Linking

/-! What is known of a linked schema.

Linking gives each declaration its names, parents before what is nested in them, and each
field its type. So a path is the chain of the wrappers' names from file scope down
(`Schema.Linked.pathOf_eq`), and what a type refers to is a declaration of that kind.
`Schema.linked_of_text` says so of every schema that is read and linked. -/
namespace SwiftWrap
open Text Grammar

namespace Schema

/-- The name of a declaration's wrapper. -/
def wrapperOf (s : Schema) (id : Nat) : String := s.viewAt id "" (·.names.wrapper)

/-- The names of the wrappers from the outermost down to the declaration's own. -/
def pathChain (s : Schema) (id : Nat) : List String :=
  ((id :: s.enclosing id).map s.wrapperOf).reverse

/-- The names that a declaration gets, once its parent has got its own. -/
def namesFor (s : Schema) (p : Prefixes) (id : Nat) (d : Declaration) : Names :=
  let wrapper := p.wrapperName (s.nameChain id)
  ⟨wrapper, s.pathUnder d.parent wrapper, p.wireName d.kind (s.nameChain id)⟩

/-- A field whose type is a scalar's, or a declaration's of the right kind. -/
inductive Refers (s : Schema) (f : Field) : Prop where
  | scalar {scalar : Scalar} (h : f.type = .scalar scalar)
  | message {target : Nat} {d : Declaration} (h : f.type = .message target)
      (hd : s.get? target = some d) (hkind : d.kind = .message)
  | enumeration {target : Nat} {d : Declaration} (h : f.type = .enumeration target)
      (hd : s.get? target = some d) (hkind : d.kind = .enumeration)

/-- What linking leaves: a forest with its names and its types. -/
structure Linked (s : Schema) (p : Prefixes) : Prop where
  forest : s.IsForest
  rootKind : ∀ id ∈ s.roots, ∀ d, s.get? id = some d → d.kind = .message
  names : ∀ id d, s.get? id = some d → d.names = s.namesFor p id d
  fieldNames : ∀ id d, s.get? id = some d → ∀ f ∈ d.fields, Run isWord f.name.toList
  types : ∀ id d, s.get? id = some d → ∀ f ∈ d.fields, s.Refers f
  items : ∀ id d, s.get? id = some d → ∀ i ∈ d.items, i.Printable

/-! ### Forests -/

theorem exists_unlinked_eq {s t : Schema} (h : t.unlinked = s.unlinked) {id : Nat} {e : Declaration}
    (he : t.get? id = some e) : ∃ d, s.get? id = some d ∧ d.unlinked = e.unlinked := by
  have hget := s.get?_unlinked id
  rw [← h, get?_unlinked, he] at hget
  obtain ⟨d, hd, heq⟩ := Option.map_eq_some_iff.1 hget.symm
  exact ⟨d, hd, heq⟩

theorem roots_of_unlinked_eq {s t : Schema} (h : t.unlinked = s.unlinked) : t.roots = s.roots := by
  show t.unlinked.roots = s.unlinked.roots
  rw [h]

theorem listed_of_unlinked_eq {s t : Schema} (h : t.unlinked = s.unlinked) :
    t.listed = s.listed := by
  rw [← listed_unlinked, h, listed_unlinked]

/-- Links are not touched by names and types. -/
theorem IsForest.of_unlinked_eq {s t : Schema} (h : t.unlinked = s.unlinked) (hs : s.IsForest) :
    t.IsForest where
  preorder := by
    have hlength : t.declarations.length = s.declarations.length := by
      have := congrArg (·.declarations.length) h
      simpa [unlinked] using this
    rw [listed_of_unlinked_eq h, hs.preorder, hlength]
  root id hid := by
    obtain ⟨d, hd, hparent⟩ := hs.root id (roots_of_unlinked_eq h ▸ hid)
    obtain ⟨e, he, heq⟩ := exists_unlinked_eq h.symm hd
    exact ⟨e, he, by rw [← Declaration.unlinked_parent, heq, Declaration.unlinked_parent, hparent]⟩
  child id e he c hc := by
    obtain ⟨d, hd, heq⟩ := exists_unlinked_eq h he
    have hchildren : d.children = e.children := by
      rw [← Declaration.unlinked_children, heq, Declaration.unlinked_children]
    obtain ⟨d', hd', hparent⟩ := hs.child id d hd c (hchildren ▸ hc)
    obtain ⟨e', he', heq'⟩ := exists_unlinked_eq h.symm hd'
    exact ⟨e', he', by
      rw [← Declaration.unlinked_parent, heq', Declaration.unlinked_parent, hparent]⟩

/-! ### Names -/

theorem pathUnder_congr {s t : Schema} {parent : Option Nat} {wrapper : String}
    (h : ∀ q ∈ parent, t.pathOf q = s.pathOf q) :
    t.pathUnder parent wrapper = s.pathUnder parent wrapper := by
  cases parent with
  | none => rfl
  | some q => rw [pathUnder, pathUnder, h q rfl]

theorem pathOf_modify_of_ne {s : Schema} {id k : Nat} (h : id ≠ k)
    (change : Declaration → Declaration) : (s.modify id change).pathOf k = s.pathOf k := by
  rw [pathOf, viewAt, get?_modify, if_neg h]
  rfl

theorem nameChain_of_unlinked_eq {s t : Schema} (h : t.unlinked = s.unlinked) (id : Nat) :
    t.nameChain id = s.nameChain id := by
  rw [← nameChain_unlinked, h, nameChain_unlinked]

/-- One more declaration gets its names; those before it keep theirs. -/
theorem names_assignNames {s : Schema} (hs : s.IsForest) (p : Prefixes) {k : Nat}
    (h : ∀ id < k, ∀ d, s.get? id = some d → d.names = s.namesFor p id d) :
    ∀ id < k + 1, ∀ d, (s.assignNames p k).get? id = some d →
      d.names = (s.assignNames p k).namesFor p id d := by
  intro id hid d hd
  have hunlinked := unlinked_assignNames p s k
  have hchain := nameChain_of_unlinked_eq hunlinked id
  have hforest := hs.of_unlinked_eq hunlinked
  have hpath : ∀ wrapper, (s.assignNames p k).pathUnder d.parent wrapper =
      s.pathUnder d.parent wrapper := by
    intro wrapper
    refine pathUnder_congr fun q hq => pathOf_modify_of_ne ?_ _
    have hlt := (hforest.isParent_lt (parentOf_eq_some_iff.2 ⟨d, hd, hq⟩)).1
    omega
  rw [namesFor, hchain, hpath]
  rw [assignNames, get?_modify] at hd
  split at hd
  · next heq =>
    subst heq
    obtain ⟨e, he, rfl⟩ := Option.map_eq_some_iff.1 hd
    rfl
  · exact h id (by omega) d hd

theorem names_foldl_assignNames {s : Schema} (hs : s.IsForest) (p : Prefixes) (n : Nat) :
    ∀ id < n, ∀ d, ((List.range n).foldl (assignNames p) s).get? id = some d →
      d.names = ((List.range n).foldl (assignNames p) s).namesFor p id d := by
  induction n with
  | zero => intro id hid; omega
  | succ n ih =>
    rw [List.range_succ, List.foldl_append]
    exact names_assignNames (hs.of_unlinked_eq (unlinked_foldl_assignNames p s _)) p ih

theorem names_withNames {s : Schema} (hs : s.IsForest) (p : Prefixes) {id : Nat} {d : Declaration}
    (hd : (s.withNames p).get? id = some d) : d.names = (s.withNames p).namesFor p id d := by
  obtain ⟨e, he, -⟩ := exists_unlinked_eq (unlinked_withNames s p) hd
  have hlt := lt_of_get? he
  rw [withNames, hs.preorder] at hd ⊢
  exact names_foldl_assignNames hs p _ id hlt d hd

/-- Types are linked without touching names. -/
theorem get?_linkAll_names (s : Schema) (ids : List Nat) (id : Nat) :
    ((s.linkAll ids).schema.get? id).map Declaration.names =
      (s.get? id).map Declaration.names := by
  induction ids generalizing s with
  | nil => rfl
  | cons k rest ih =>
    rw [linkAll_cons]
    split
    · next fields _ =>
      rw [ih, withFields, get?_modify]
      split
      · rw [Option.map_map]
        rfl
      · rfl
    · rfl

theorem names_link {s : Schema} (hs : s.IsForest) (p : Prefixes) {id : Nat} {d : Declaration}
    (hd : (s.link p).schema.get? id = some d) : d.names = (s.link p).schema.namesFor p id d := by
  have hunlinked : (s.link p).schema.unlinked = (s.withNames p).unlinked := unlinked_linkAll ..
  have hnames : ∀ k, ((s.link p).schema.get? k).map Declaration.names =
      ((s.withNames p).get? k).map Declaration.names := get?_linkAll_names (s.withNames p) s.listed
  have hpath : ∀ k, (s.link p).schema.pathOf k = (s.withNames p).pathOf k := by
    intro k
    have hk := hnames k
    unfold pathOf viewAt
    cases h : (s.link p).schema.get? k <;> cases h' : (s.withNames p).get? k <;>
      simp_all
  obtain ⟨e, he, heq⟩ := exists_unlinked_eq hunlinked hd
  have hparent : e.parent = d.parent := by
    rw [← Declaration.unlinked_parent, heq, Declaration.unlinked_parent]
  have hkind : e.kind = d.kind := by
    rw [← Declaration.unlinked_kind, heq, Declaration.unlinked_kind]
  have hsame : e.names = d.names := by
    have := hnames id
    rw [hd, he] at this
    exact (Option.some.inj this).symm
  have hassigned := names_withNames hs p he
  rw [namesFor, hparent, hkind] at hassigned
  rw [← hsame, hassigned, namesFor, nameChain_of_unlinked_eq hunlinked,
    pathUnder_congr fun q _ => hpath q]

/-! ### Fields and items -/

end Schema

theorem Declaration.unlinked_fields (d : Declaration) :
    d.unlinked.fields = d.fields.map Field.untyped := by
  obtain ⟨_, _, body, _⟩ := d
  cases body <;> rfl

theorem Declaration.unlinked_items (d : Declaration) : d.unlinked.items = d.items := by
  obtain ⟨_, _, body, _⟩ := d
  cases body <;> rfl

/-- A declaration is its names, its fields, and what linking leaves alone. -/
theorem Declaration.eq_of_unlinked {d e : Declaration} (h : d.unlinked = e.unlinked)
    (hfields : d.fields = e.fields) (hnames : d.names = e.names) : d = e := by
  obtain ⟨name, parent, body, names⟩ := d
  obtain ⟨name', parent', body', names'⟩ := e
  cases body <;> cases body' <;>
    simp_all [unlinked, Body.mapFields, Declaration.fields, Body.fields]

namespace Schema

/-- A type that is resolved refers to something. -/
theorem IsResolved.refers {s : Schema} {id : Nat} {f : Field} (h : s.IsResolved id f) :
    s.Refers f := by
  by_cases hneeds : NeedsDeclaration f.typeName
  · obtain ⟨target, d, -, hd, -, htype⟩ := h.declared hneeds
    cases hkind : d.kind with
    | message =>
      rw [hkind] at htype
      exact .message htype hd hkind
    | enumeration =>
      rw [hkind] at htype
      exact .enumeration htype hd hkind
  · obtain ⟨scalar, hscalar⟩ := not_forall.1 hneeds
    exact .scalar ((h.scalar scalar).2 (not_not.1 hscalar))

theorem exists_document_of_linkedOfText {p : Prefixes} {text : String} {s : Schema}
    (h : linkedOfText p text = .ok s) : ∃ document,
      Document.ofLines (Source.lines text) = .ok document ∧
      (document.toSchema.link p).problem = none ∧ (document.toSchema.link p).schema = s := by
  rw [linkedOfText] at h
  cases hread : ofText text with
  | error problem =>
    rw [hread] at h
    cases h
  | ok t =>
    rw [hread] at h
    obtain ⟨document, hdocument, rfl⟩ := ofLines_eq_ok_iff_document.1 hread
    have hlink : document.toSchema.linked p = .ok s := h
    rw [linked] at hlink
    split at hlink
    · next heq =>
      cases hlink
      exact ⟨document, hdocument, by rw [heq], by rw [heq]⟩
    · cases hlink

/-- **A schema that is read and linked has its names and its types.** -/
theorem linked_of_text {p : Prefixes} {text : String} {s : Schema}
    (h : linkedOfText p text = .ok s) : s.Linked p := by
  obtain ⟨document, hdocument, hnone, rfl⟩ := exists_document_of_linkedOfText h
  have hs := document.isForest
  have htidy := (Document.ofLines_eq_ok_iff.1 hdocument).tidy
  have hunlinked := unlinked_link document.toSchema p
  have hfields : ∀ id, ∀ f ∈ document.toSchema.fieldsOf id, f.AsDeclared := by
    intro id f hf
    obtain ⟨d, hd, hf⟩ := mem_fieldsOf.1 hf
    exact Document.asDeclared hdocument d (List.mem_of_getElem? hd) f hf
  exact {
    forest := hs.of_unlinked_eq hunlinked
    rootKind := by
      intro id hid e he
      obtain ⟨d, hd, heq⟩ := exists_unlinked_eq hunlinked he
      rw [← Declaration.unlinked_kind, ← heq, Declaration.unlinked_kind]
      exact htidy.roots id (roots_of_unlinked_eq hunlinked ▸ hid) d hd
    names := fun id d hd => names_link hs p hd
    fieldNames := by
      intro id e he f hf
      obtain ⟨d, hd, heq⟩ := exists_unlinked_eq hunlinked he
      have hmem : f.untyped ∈ d.fields.map Field.untyped := by
        rw [← Declaration.unlinked_fields, heq, Declaration.unlinked_fields]
        exact List.mem_map_of_mem hf
      obtain ⟨g, hg, huntyped⟩ := List.mem_map.1 hmem
      have hname : f.untyped.name = g.untyped.name := by rw [huntyped]
      show Run isWord f.untyped.name.toList
      rw [hname]
      exact ((htidy.declarations d (List.mem_of_getElem? hd)).fields g hg).name
    types := fun id d hd f hf =>
      (isResolved_link hs hfields p hnone (mem_fieldsOf.2 ⟨d, hd, hf⟩)).refers
    items := by
      intro id e he i hi
      obtain ⟨d, hd, heq⟩ := exists_unlinked_eq hunlinked he
      rw [← Declaration.unlinked_items, ← heq, Declaration.unlinked_items] at hi
      exact (htidy.declarations d (List.mem_of_getElem? hd)).items i hi }

/-- No two fields of a message have the same name. -/
theorem nodup_fieldNames {p : Prefixes} {text : String} {s : Schema}
    (h : linkedOfText p text = .ok s) {id : Nat} {d : Declaration} (hd : s.get? id = some d) :
    (d.fields.map Field.name).Nodup := by
  obtain ⟨document, hdocument, -, rfl⟩ := exists_document_of_linkedOfText h
  obtain ⟨packages, hfile, -⟩ := Document.ofLines_eq_ok_iff.1 hdocument
  obtain ⟨e, he, heq⟩ := exists_unlinked_eq (unlinked_link document.toSchema p) hd
  have hspelled := (spelledBy_of_isFile hfile).2 none 0 e (List.mem_of_getElem? he)
  have huntyped : d.fields.map Field.untyped = e.fields.map Field.untyped := by
    rw [← Declaration.unlinked_fields, ← heq, Declaration.unlinked_fields]
  have hsame : d.fields.map Field.name = e.fields.map Field.name := by
    have := congrArg (List.map Field.name) huntyped
    rwa [List.map_map, List.map_map] at this
  rw [hsame]
  exact List.pairwise_map.2 (hspelled.fieldsApart.imp fun hne => hne.1)

/-! ### Paths -/

end Schema

theorem dotted_concat {chain : List String} (h : chain ≠ []) (name : String) :
    dotted (chain ++ [name]) = dotted chain ++ "." ++ name := by
  induction chain with
  | nil => exact absurd rfl h
  | cons first rest ih =>
    cases rest with
    | nil => simp [dotted]
    | cons next rest =>
      have htail := ih (List.cons_ne_nil next rest)
      simp only [dotted, List.cons_append, String.intercalate_cons_cons] at htail ⊢
      rw [htail]
      simp only [String.append_assoc]

namespace Schema.Linked
variable {s : Schema} {p : Prefixes}

/-- The chain of a declaration is its parent's and one more wrapper. -/
theorem pathChain_eq (hs : s.IsForest) (id : Nat) :
    s.pathChain id = (match s.parentOf id with
      | none => []
      | some parent => s.pathChain parent) ++ [s.wrapperOf id] :=
  hs.ascending.chain_eq s.wrapperOf id

/-- A path is the dotted chain of the wrappers around the declaration and of its own. -/
theorem pathOf_eq (h : s.Linked p) {id : Nat} (hid : id < s.declarations.length) :
    s.pathOf id = dotted (s.pathChain id) := by
  induction id using Nat.strongRecOn with
  | _ id ih =>
    obtain ⟨d, hd⟩ := exists_get? hid
    have hwrapper : s.wrapperOf id = d.names.wrapper := viewAt_of_get? hd ..
    have hpath : d.names.path = s.pathUnder d.parent d.names.wrapper := by
      rw [h.names id d hd]
      rfl
    have hparent : s.parentOf id = d.parent := viewAt_of_get? hd ..
    rw [pathOf, viewAt_of_get? hd, hpath, pathChain_eq h.forest, hparent, hwrapper]
    cases hq : d.parent with
    | none => rfl
    | some q =>
      obtain ⟨hlt, e, he⟩ := h.forest.isParent_lt (hparent.trans hq)
      rw [pathUnder, ih q hlt (lt_of_get? he), dotted_concat (by simp [pathChain])]

end Schema.Linked
end SwiftWrap
