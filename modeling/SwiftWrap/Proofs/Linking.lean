import SwiftWrap.Proofs.Frame
import SwiftWrap.Proofs.Grammar
import SwiftWrap.Proofs.Scope

/-! When linking succeeds, and what it says when it does not.

A field fails if its type name is no scalar's and the search for it finds no single
declaration (`Schema.Fails`). Each declaration is linked as it would be in the schema that
was read, since linking leaves alone what a search reads. So linking succeeds exactly if no
field fails; then every type is the one that its name stands for (`Schema.IsResolved`).
Otherwise the problem is that of the first field that fails, in the order of the numbers
and then of the fields (`Schema.IsFirstFailure`). `Schema.link_by_fields` says all this of
every schema that is read. -/
namespace SwiftWrap
open Spelling Grammar

/-! ### Types by their names -/

theorem Scalar.ofSpelling?_eq_some_iff {name : String} {scalar : Scalar} :
    Scalar.ofSpelling? name = some scalar ↔ name = scalar.spelling := by
  constructor
  · intro h
    have := List.find?_some h
    exact (beq_iff_eq.1 this).symm
  · intro heq
    subst heq
    cases scalar <;> decide

namespace Schema

/-- A type name that no scalar has. -/
def NeedsDeclaration (typeName : String) : Prop := ∀ scalar : Scalar, typeName ≠ scalar.spelling

/-- A field whose type has to be looked up, and is not found. -/
def Fails (s : Schema) (id : Nat) (f : Field) : Prop :=
  NeedsDeclaration f.typeName ∧ ∀ target, s.resolve id f.typeName ≠ .found target

/-- A field of a declaration whose type is what its name stands for there. -/
structure IsResolved (s : Schema) (id : Nat) (f : Field) : Prop where
  scalar : ∀ scalar, f.type = .scalar scalar ↔ f.typeName = scalar.spelling
  declared : NeedsDeclaration f.typeName → ∃ target d, s.resolve id f.typeName = .found target ∧
    s.get? target = some d ∧ d.name = f.typeName ∧
    f.type = match d.kind with
      | .message => .message target
      | .enumeration => .enumeration target

/-- The problem of a field that fails. -/
inductive IsProblem (s : Schema) (id : Nat) (f : Field) : Problem → Prop where
  | missing (h : s.resolve id f.typeName = .missing) :
      IsProblem s id f (.unresolvedType (s.nameChain id) f.name f.typeName)
  | ambiguous {candidates : List Nat} (h : s.resolve id f.typeName = .ambiguous candidates) :
      IsProblem s id f
        (.ambiguousType (s.nameChain id) f.name f.typeName (candidates.map s.nameChain))

/-- What is said about a field that fails, with dotted chains of names. -/
def failureText (s : Schema) (file : String) (id : Nat) (f : Field) : String :=
  match s.resolve id f.typeName with
  | .ambiguous candidates =>
    s!"Ambiguous type {f.typeName} for field {dotted (s.nameChain id)}.{f.name}, " ++
      s!"candidates {dottedList (candidates.map s.nameChain)}: {file}"
  | _ => s!"Unresolved type {f.typeName} for field {dotted (s.nameChain id)}.{f.name}: {file}"

/-- A problem in words is the text for the field that failed. -/
theorem IsProblem.message_eq {s : Schema} {id : Nat} {f : Field} {problem : Problem}
    (h : s.IsProblem id f problem) (file : String) :
    problem.message file = s.failureText file id f := by
  cases h with
  | missing h =>
    rw [failureText, h]
    rfl
  | ambiguous h =>
    rw [failureText, h]
    rfl

/-- A field that fails, with none before it that does. -/
structure IsFirstFailure (s : Schema) (id : Nat) (f : Field) : Prop where
  fails : s.Fails id f
  first : ∃ before after, s.fieldsOf id = before ++ f :: after ∧ ∀ g ∈ before, ¬s.Fails id g
  earlier : ∀ k < id, ∀ g ∈ s.fieldsOf k, ¬s.Fails k g

/-- Exactly the names that are no scalars start out unresolved. -/
theorem needsDeclaration_iff {typeName : String} :
    NeedsDeclaration typeName ↔ Field.initialType typeName = .unresolved := by
  unfold Field.initialType NeedsDeclaration
  cases h : Scalar.ofSpelling? typeName with
  | some scalar => simpa using ⟨scalar, Scalar.ofSpelling?_eq_some_iff.1 h⟩
  | none =>
    refine iff_of_true (fun scalar hname => ?_) rfl
    rw [Scalar.ofSpelling?_eq_some_iff.2 hname] at h
    cases h

theorem initialType_eq_scalar_iff {typeName : String} {scalar : Scalar} :
    Field.initialType typeName = .scalar scalar ↔ typeName = scalar.spelling := by
  rw [← Scalar.ofSpelling?_eq_some_iff, Field.initialType]
  cases Scalar.ofSpelling? typeName <;> simp

/-! ### One field -/

/-- What linking does with a field as it is declared: a scalar is known already, a declaration is
found, or the field fails. -/
theorem linkType_cases {s : Schema} {id : Nat} {f : Field} (hf : f.AsDeclared) :
    (∃ scalar : Scalar, f.typeName = scalar.spelling ∧ s.linkType id f = .ok (.scalar scalar)) ∨
    (NeedsDeclaration f.typeName ∧ ∃ target, s.resolve id f.typeName = .found target ∧
      s.linkType id f = .ok (s.refTo target)) ∨
    ∃ problem, s.Fails id f ∧ s.IsProblem id f problem ∧ s.linkType id f = .error problem := by
  unfold linkType
  rw [(hf : f.type = _)]
  by_cases hname : ∃ scalar : Scalar, f.typeName = scalar.spelling
  · obtain ⟨scalar, hname⟩ := hname
    rw [initialType_eq_scalar_iff.2 hname]
    exact .inl ⟨scalar, hname, rfl⟩
  · have hneeds : NeedsDeclaration f.typeName := not_exists.1 hname
    rw [needsDeclaration_iff.1 hneeds]
    cases hresolve : s.resolve id f.typeName with
    | found target => exact .inr (.inl ⟨hneeds, target, rfl, rfl⟩)
    | ambiguous candidates =>
      exact .inr (.inr ⟨_, ⟨hneeds, by simp [hresolve]⟩, .ambiguous hresolve, rfl⟩)
    | missing => exact .inr (.inr ⟨_, ⟨hneeds, by simp [hresolve]⟩, .missing hresolve, rfl⟩)

/-- A field links unless it fails. -/
theorem linkType_ok_iff {s : Schema} {id : Nat} {f : Field} (hf : f.AsDeclared) :
    (∃ type, s.linkType id f = .ok type) ↔ ¬s.Fails id f := by
  rcases linkType_cases hf with ⟨scalar, hname, hlink⟩ | ⟨-, target, hfound, hlink⟩ |
    ⟨problem, hfails, -, hlink⟩
  · exact iff_of_true ⟨_, hlink⟩ fun hfails => hfails.1 scalar hname
  · exact iff_of_true ⟨_, hlink⟩ fun hfails => hfails.2 target hfound
  · refine iff_of_false ?_ (not_not_intro hfails)
    intro hx
    obtain ⟨type, htype⟩ := hx
    rw [hlink] at htype
    cases htype

/-- And it fails with the problem that its name has. -/
theorem isProblem_of_linkType {s : Schema} {id : Nat} {f : Field} {problem : Problem}
    (hf : f.AsDeclared) (h : s.linkType id f = .error problem) :
    s.Fails id f ∧ s.IsProblem id f problem := by
  rcases linkType_cases hf with ⟨scalar, -, hlink⟩ | ⟨-, target, -, hlink⟩ |
    ⟨problem', hfails, hproblem, hlink⟩
  · cases hlink.symm.trans h
  · cases hlink.symm.trans h
  · cases hlink.symm.trans h
    exact ⟨hfails, hproblem⟩

/-- A field that links holds what its name refers to. -/
theorem isResolved_of_linkType {s : Schema} (hs : s.IsForest) {id : Nat}
    (hid : id < s.declarations.length) {f f' : Field}
    (hf : f.AsDeclared) (h : s.linkType id f = .ok f'.type)
    (huntyped : f'.untyped = f.untyped) : s.IsResolved id f' := by
  have hname : f'.typeName = f.typeName := by
    show f'.untyped.typeName = f.untyped.typeName
    rw [huntyped]
  rcases linkType_cases hf with ⟨scalar, hscalar, hlink⟩ | ⟨hneeds, target, hfound, hlink⟩ |
    ⟨problem, -, -, hlink⟩
  · have htype : f'.type = .scalar scalar := Except.ok.inj (h.symm.trans hlink)
    rw [← initialType_eq_scalar_iff.2 hscalar] at htype
    constructor
    · intro x
      rw [htype, hname]
      exact initialType_eq_scalar_iff
    · exact fun hneeds => absurd (hname.trans hscalar) (hneeds scalar)
  · have htype : f'.type = s.refTo target := Except.ok.inj (h.symm.trans hlink)
    obtain ⟨d, hd, hdname⟩ := exists_of_resolve_found hs hid hfound
    rw [refTo, viewAt_of_get? hd] at htype
    rw [← hname] at hneeds hfound hdname
    constructor
    · intro x
      refine iff_of_false ?_ (hneeds x)
      rw [htype]
      cases d.kind <;> simp
    · exact fun _ => ⟨target, d, hfound, hd, hdname, htype⟩
  · cases hlink.symm.trans h

/-- What a field's type is does not depend on names and types elsewhere. -/
theorem IsResolved.of_unlinked_eq {s t : Schema} (h : t.unlinked = s.unlinked) {id : Nat}
    {f : Field} (hf : s.IsResolved id f) : t.IsResolved id f := by
  refine ⟨hf.scalar, fun hneeds => ?_⟩
  obtain ⟨target, d, hfound, hd, hname, htype⟩ := hf.declared hneeds
  obtain ⟨e, he, hename, hekind⟩ := exists_get?_of_unlinked_eq h hd
  rw [← resolve_of_unlinked_eq h] at hfound
  rw [← hekind] at htype
  exact ⟨target, e, hfound, he, hename.trans hname, htype⟩

/-! ### All fields of a declaration -/

/-- The first field that fails ends the fields of a message. -/
theorem exists_of_linkFields_error {s : Schema} {id : Nat} {fields : List Field}
    {problem : Problem} (h : s.linkFields id fields = .error problem) :
    ∃ before f after, fields = before ++ f :: after ∧
      (∀ g ∈ before, ∃ type, s.linkType id g = .ok type) ∧ s.linkType id f = .error problem := by
  induction fields with
  | nil => cases h
  | cons f rest ih =>
    rw [linkFields] at h
    cases htype : s.linkType id f with
    | error problem' =>
      rw [htype] at h
      cases h
      exact ⟨[], f, rest, rfl, by simp, htype⟩
    | ok type =>
      cases hrest : s.linkFields id rest with
      | error problem' =>
        rw [htype, hrest] at h
        cases h
        obtain ⟨before, g, after, rfl, hbefore, hg⟩ := ih hrest
        refine ⟨f :: before, g, after, rfl, ?_, hg⟩
        exact List.forall_mem_cons.2 ⟨⟨type, htype⟩, hbefore⟩
      | ok rest' =>
        rw [htype, hrest] at h
        cases h

/-- The fields of a message link if each does. -/
theorem linkFields_ok_iff {s : Schema} {id : Nat} {fields : List Field}
    (hfields : ∀ f ∈ fields, f.AsDeclared) :
    (∃ fields', s.linkFields id fields = .ok fields') ↔ ∀ f ∈ fields, ¬s.Fails id f := by
  constructor
  · rintro ⟨fields', h⟩ f hf
    obtain ⟨f', -, htype, -⟩ := exists_of_forall₂ (linkFields_eq_ok_iff.1 h).flip hf
    exact (linkType_ok_iff (hfields f hf)).1 ⟨f'.type, htype⟩
  · intro h
    cases hlink : s.linkFields id fields with
    | ok fields' => exact ⟨fields', rfl⟩
    | error problem =>
      obtain ⟨before, f, after, rfl, -, herror⟩ := exists_of_linkFields_error hlink
      have hf : f ∈ before ++ f :: after := by simp
      exact absurd (isProblem_of_linkType (hfields f hf) herror).1 (h f hf)

/-! ### All declarations -/

theorem mem_fieldsOf {s : Schema} {id : Nat} {f : Field} :
    f ∈ s.fieldsOf id ↔ ∃ d, s.get? id = some d ∧ f ∈ d.fields := by
  unfold fieldsOf viewAt
  cases s.get? id <;> simp

theorem get?_modify (s : Schema) (id k : Nat) (change : Declaration → Declaration) :
    (s.modify id change).get? k = if id = k then (s.get? k).map change else s.get? k := by
  rw [get?, modify, List.getElem?_modify]
  split <;> simp [get?]

/-- Fields that are put into one message leave those of all others. -/
theorem fieldsOf_withFields_of_ne {s : Schema} {id k : Nat} (h : id ≠ k) (fields : List Field) :
    (s.withFields id fields).fieldsOf k = s.fieldsOf k := by
  rw [fieldsOf, viewAt, withFields, get?_modify, if_neg h]
  rfl

theorem fieldsOf_withFields {s : Schema} {id : Nat} {fields : List Field}
    (h : s.linkFields id (s.fieldsOf id) = .ok fields) :
    (s.withFields id fields).fieldsOf id = fields := by
  have hempty (hnone : s.fieldsOf id = []) : fields = [] := by
    rw [hnone] at h
    cases h
    rfl
  rw [fieldsOf, viewAt, withFields, get?_modify, if_pos rfl]
  cases hd : s.get? id with
  | none =>
    have hnone : s.fieldsOf id = [] := by simp only [fieldsOf, viewAt, hd]
    exact (hempty hnone).symm
  | some d =>
    obtain ⟨name, parent, body, names⟩ := d
    cases body with
    | message children old => rfl
    | enumeration items => exact (hempty (viewAt_of_get? hd ..)).symm

/-- Declarations that are linked do not change how others are linked. -/
theorem linkFields_withFields {s : Schema} {id k : Nat} {fields : List Field} (hne : id ≠ k)
    (h : s.linkFields id (s.fieldsOf id) = .ok fields) :
    (s.withFields id fields).linkFields k ((s.withFields id fields).fieldsOf k) =
      s.linkFields k (s.fieldsOf k) := by
  rw [fieldsOf_withFields_of_ne hne, ← linkFields_unlinked, unlinked_withFields h,
    linkFields_unlinked]

/-- Where linking comes to the end, each declaration has the fields that it got by itself. -/
theorem linkAll_ok {s : Schema} {ids : List Nat} (hids : ids.Nodup)
    (h : (s.linkAll ids).problem = none) :
    (∀ id ∈ ids, s.linkFields id (s.fieldsOf id) = .ok ((s.linkAll ids).schema.fieldsOf id)) ∧
      ∀ id, id ∉ ids → (s.linkAll ids).schema.fieldsOf id = s.fieldsOf id := by
  induction ids generalizing s with
  | nil => exact ⟨by simp, fun _ _ => rfl⟩
  | cons id rest ih =>
    obtain ⟨hid, hrest⟩ := List.nodup_cons.1 hids
    cases hfields : s.linkFields id (s.fieldsOf id) with
    | error problem =>
      rw [linkAll_cons, hfields] at h
      cases h
    | ok fields =>
      have hlink : s.linkAll (id :: rest) = (s.withFields id fields).linkAll rest := by
        rw [linkAll_cons, hfields]
      rw [hlink] at h ⊢
      obtain ⟨hmem, hother⟩ := ih hrest h
      constructor
      · intro k hk
        rcases List.mem_cons.1 hk with rfl | hk
        · rw [hother k hid, fieldsOf_withFields hfields, hfields]
        · have hne : id ≠ k := fun heq => hid (heq ▸ hk)
          rw [← hmem k hk, linkFields_withFields hne hfields]
      · intro k hk
        have hne : id ≠ k := fun heq => hk (heq ▸ List.mem_cons_self)
        rw [hother k fun hmem => hk (List.mem_cons_of_mem id hmem), fieldsOf_withFields_of_ne hne]

/-- Where it does not, the first declaration that fails ended it. -/
theorem exists_of_linkAll_problem {s : Schema} {ids : List Nat} (hids : ids.Nodup)
    {problem : Problem} (h : (s.linkAll ids).problem = some problem) :
    ∃ before id after, ids = before ++ id :: after ∧
      (∀ k ∈ before, ∃ fields, s.linkFields k (s.fieldsOf k) = .ok fields) ∧
      s.linkFields id (s.fieldsOf id) = .error problem := by
  induction ids generalizing s with
  | nil => cases h
  | cons id rest ih =>
    obtain ⟨hid, hrest⟩ := List.nodup_cons.1 hids
    cases hfields : s.linkFields id (s.fieldsOf id) with
    | error problem' =>
      rw [linkAll_cons, hfields] at h
      cases h
      exact ⟨[], id, rest, rfl, by simp, hfields⟩
    | ok fields =>
      rw [linkAll_cons, hfields] at h
      obtain ⟨before, k, after, rfl, hbefore, hk⟩ := ih hrest h
      have hne {x : Nat} (hx : x ∈ before ++ k :: after) : id ≠ x := fun heq => hid (heq ▸ hx)
      refine ⟨id :: before, k, after, rfl, ?_, ?_⟩
      · refine List.forall_mem_cons.2 ⟨⟨fields, hfields⟩, fun x hx => ?_⟩
        rw [← linkFields_withFields (hne (by simp [hx])) hfields]
        exact hbefore x hx
      · rw [← linkFields_withFields (hne (by simp)) hfields]
        exact hk

/-! ### Names and types -/

theorem fieldsOf_assignNames (p : Prefixes) (s : Schema) (id k : Nat) :
    (s.assignNames p id).fieldsOf k = s.fieldsOf k := by
  rw [fieldsOf, viewAt, assignNames, get?_modify]
  by_cases hk : id = k
  · rw [if_pos hk, fieldsOf, viewAt]
    cases s.get? k <;> rfl
  · rw [if_neg hk]
    rfl

theorem fieldsOf_withNames (s : Schema) (p : Prefixes) (k : Nat) :
    (s.withNames p).fieldsOf k = s.fieldsOf k := by
  unfold withNames
  induction s.listed generalizing s with
  | nil => rfl
  | cons id rest ih => rw [List.foldl_cons, ih, fieldsOf_assignNames]

/-- Naming declarations first makes no difference to types. -/
theorem linkFields_withNames (s : Schema) (p : Prefixes) (k : Nat) :
    (s.withNames p).linkFields k ((s.withNames p).fieldsOf k) = s.linkFields k (s.fieldsOf k) := by
  rw [fieldsOf_withNames, ← linkFields_unlinked, unlinked_withNames, linkFields_unlinked]

end Schema

namespace Schema

/-! ### The whole schema -/

theorem mem_before_of_lt {n id k : Nat} {before after : List Nat}
    (h : List.range n = before ++ id :: after) (hk : k < id) : k ∈ before := by
  have hid : id < n := List.mem_range.1 (by simp [h])
  have hmem : k ∈ before ++ id :: after := h ▸ List.mem_range.2 (Nat.lt_trans hk hid)
  have hrises : (before ++ id :: after).Pairwise (· < ·) := h ▸ List.pairwise_lt_range
  rcases List.mem_append.1 hmem with hmem | hmem
  · exact hmem
  · rcases List.mem_cons.1 hmem with rfl | hmem
    · exact absurd hk (Nat.lt_irrefl k)
    · have hafter := (List.pairwise_append.1 hrises).2.1
      exact absurd (List.rel_of_pairwise_cons hafter hmem) (Nat.lt_asymm hk)

section
variable {s : Schema} (hs : s.IsForest) (hfields : ∀ id, ∀ f ∈ s.fieldsOf id, f.AsDeclared)
  (p : Prefixes)
include hs

theorem nodup_listed : s.listed.Nodup := by
  rw [hs.preorder]
  exact List.nodup_range

theorem fieldsOf_link (h : (s.link p).problem = none) {id : Nat}
    (hid : id < s.declarations.length) :
    s.linkFields id (s.fieldsOf id) = .ok ((s.link p).schema.fieldsOf id) := by
  have hlinked := (linkAll_ok (nodup_listed hs) h).1 id (hs.mem_listed.2 hid)
  rwa [linkFields_withNames] at hlinked

include hfields

/-- The numbers are gone through in order, and the fields of each declaration too. -/
theorem isFirstFailure_of_problem {problem : Problem} (h : (s.link p).problem = some problem) :
    ∃ id f, s.IsFirstFailure id f ∧ s.IsProblem id f problem := by
  obtain ⟨before, id, after, hids, hbefore, herror⟩ := exists_of_linkAll_problem (nodup_listed hs) h
  rw [linkFields_withNames] at herror
  obtain ⟨first, f, rest, heq, hfirst, hf⟩ := exists_of_linkFields_error herror
  have hdeclared : f.AsDeclared := hfields id f (by simp [heq])
  obtain ⟨hfails, hproblem⟩ := isProblem_of_linkType hdeclared hf
  refine ⟨id, f, ⟨hfails, ⟨first, rest, heq, fun g hg => ?_⟩, fun k hk g hg => ?_⟩, hproblem⟩
  · exact (linkType_ok_iff (hfields id g (by simp [heq, hg]))).1 (hfirst g hg)
  · rw [hs.preorder] at hids
    obtain ⟨fields, hlink⟩ := hbefore k (mem_before_of_lt hids hk)
    rw [linkFields_withNames] at hlink
    exact (linkFields_ok_iff (hfields k)).1 ⟨fields, hlink⟩ g hg

/-- A schema links if no field of it fails. -/
theorem link_ok_iff : (s.link p).problem = none ↔ ∀ id, ∀ f ∈ s.fieldsOf id, ¬s.Fails id f := by
  constructor
  · intro h id f hf
    obtain ⟨d, hd, -⟩ := mem_fieldsOf.1 hf
    exact (linkFields_ok_iff (hfields id)).1 ⟨_, fieldsOf_link hs p h (lt_of_get? hd)⟩ f hf
  · intro h
    cases hproblem : (s.link p).problem with
    | none => rfl
    | some problem =>
      obtain ⟨id, f, hfirst, -⟩ := isFirstFailure_of_problem hs hfields p hproblem
      obtain ⟨before, after, heq, -⟩ := hfirst.first
      exact absurd hfirst.fails (h id f (by simp [heq]))

theorem isResolved_link (h : (s.link p).problem = none) {id : Nat} {f : Field}
    (hf : f ∈ (s.link p).schema.fieldsOf id) : (s.link p).schema.IsResolved id f := by
  obtain ⟨e, he, -⟩ := mem_fieldsOf.1 hf
  obtain ⟨d, hd, -⟩ := exists_get?_of_unlinked_eq (unlinked_link s p).symm he
  have hlink := fieldsOf_link hs p h (lt_of_get? hd)
  obtain ⟨g, hg, htype, huntyped⟩ := exists_of_forall₂ (linkFields_eq_ok_iff.1 hlink) hf
  have hresolved := isResolved_of_linkType hs (lt_of_get? hd) (hfields id g hg) htype huntyped
  exact hresolved.of_unlinked_eq (unlinked_link s p)

end

/-- A field fails if its name needs a declaration and does not lead to one. -/
theorem not_fails_iff {s : Schema} {id : Nat} {f : Field} : ¬s.Fails id f ↔
    (NeedsDeclaration f.typeName → ∃ target, s.resolve id f.typeName = .found target) := by
  simp only [Fails, not_and, not_forall, not_not]

/-- **Linking finds every type, or the first that cannot be found.** It succeeds exactly if every
type name that needs a declaration finds one. Then every field has the type that its name
stands for. Otherwise the problem is that of the first field that fails, and the chains of
names in it are dotted when it is put into words. -/
theorem link_by_fields {lines : List Line} {s : Schema} (h : Schema.ofLines lines = .ok s)
    (p : Prefixes) :
    ((s.link p).problem = none ↔ ∀ id d, s.get? id = some d → ∀ f ∈ d.fields,
      NeedsDeclaration f.typeName → ∃ target, s.resolve id f.typeName = .found target) ∧
    (s.link p).schema.unlinked = s.unlinked ∧
    (∀ id name, (s.link p).schema.resolve id name = s.resolve id name) ∧
    ((s.link p).problem = none → ∀ id d, (s.link p).schema.get? id = some d → ∀ f ∈ d.fields,
      (s.link p).schema.IsResolved id f) ∧
    ∀ problem, (s.link p).problem = some problem → ∃ id f, s.IsFirstFailure id f ∧
      s.IsProblem id f problem ∧ ∀ file, problem.message file = s.failureText file id f := by
  obtain ⟨document, hdocument, rfl⟩ := ofLines_eq_ok_iff_document.1 h
  have hs := document.isForest
  have hfields : ∀ id, ∀ f ∈ document.toSchema.fieldsOf id, f.AsDeclared := by
    intro id f hf
    obtain ⟨d, hd, hf⟩ := mem_fieldsOf.1 hf
    exact Document.asDeclared hdocument d (List.mem_of_getElem? hd) f hf
  have hunlinked := unlinked_link document.toSchema p
  refine ⟨?_, hunlinked, resolve_of_unlinked_eq hunlinked, fun hnone id d hd f hf => ?_,
    fun problem hproblem => ?_⟩
  · rw [link_ok_iff hs hfields p]
    simp only [not_fails_iff, mem_fieldsOf]
    exact ⟨fun hall id d hd f hf => hall id f ⟨d, hd, hf⟩,
      fun hall id f ⟨d, hd, hf⟩ => hall id d hd f hf⟩
  · exact isResolved_link hs hfields p hnone (mem_fieldsOf.2 ⟨d, hd, hf⟩)
  · obtain ⟨id, f, hfirst, hcause⟩ := isFirstFailure_of_problem hs hfields p hproblem
    exact ⟨id, f, hfirst, hcause, hcause.message_eq⟩

end Schema

/-- A message that uses what is nested in it, and a nested message that uses what is around it. -/
def Document.linkSample : Document where
  package := none
  roots :=
    .message "A"
      [.declare (some .required) "B" "b" 1 none, .declare none "bool" "on" 2 (some true),
        .declare none "X" "x" 3 none]
      (.message "B" [.declare (some .repeated) "A" "a" 1 none, .declare none "X" "x" 2 none]
        (.enumeration "X" [] .nil) .nil)
      .nil

/-- The lines of that document. -/
def linkLines : List Line := [
  ⟨"message A \x7b", 1⟩, ⟨"required B b = 1;", 2⟩, ⟨"message B \x7b", 3⟩, ⟨"repeated A a = 1;", 4⟩,
  ⟨"enum X \x7b", 5⟩, ⟨"\x7d", 6⟩, ⟨"X x = 2;", 7⟩, ⟨"\x7d", 8⟩,
  ⟨"bool on = 2 [default = true];", 9⟩, ⟨"X x = 3;", 10⟩, ⟨"\x7d", 11⟩]

theorem Schema.link_by_fields_nested :
    (Document.linkSample.toSchema.link ⟨"P", "W"⟩).problem = none ∧
    ∀ id d, (Document.linkSample.toSchema.link ⟨"P", "W"⟩).schema.get? id = some d →
      ∀ f ∈ d.fields, (Document.linkSample.toSchema.link ⟨"P", "W"⟩).schema.IsResolved id f := by
  have hlines : Schema.ofLines linkLines = .ok Document.linkSample.toSchema := by rfl
  have hfound : ∀ id ∈ List.range 3, ∀ f ∈ Document.linkSample.toSchema.fieldsOf id,
      f.typeName = Scalar.bool.spelling ∨ ∃ t ∈ List.range 3,
        Document.linkSample.toSchema.resolve id f.typeName = .found t := by decide +kernel
  obtain ⟨hok, -, -, hresolved, -⟩ := Schema.link_by_fields hlines ⟨"P", "W"⟩
  have hnone := hok.2 fun id d hd f hf hneeds => by
    have hf' := Schema.mem_fieldsOf.2 ⟨d, hd, hf⟩
    rcases hfound id (List.mem_range.2 (Schema.lt_of_get? hd)) f hf' with hbool | ⟨t, -, ht⟩
    · exact absurd hbool (hneeds .bool)
    · exact ⟨t, ht⟩
  exact ⟨hnone, hresolved hnone⟩

end SwiftWrap
