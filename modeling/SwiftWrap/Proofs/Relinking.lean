import SwiftWrap.Proofs.Names

/-! Linking again.

A linking leaves marks on a schema: the names that its prefixes gave, and the types that it
found, also if it failed half-way. A later linking with other prefixes keeps a type that it finds
there and looks up the others, so it could come to something else than on the schema as it was.

It does not. Giving names and finding types do not get in each other's way
(`linkAll_withNames`), names are given anew to the same declarations
(`Grounded.withNames_withNames`), and what was found is what would be found again
(`linkAll_linkAll`). From these three, `Reached.link_link` says of every schema that comes about
by edits that linking it twice is linking it once, with the prefixes of the second time. -/
namespace SwiftWrap
namespace Schema

/-! ### What linking leaves alone -/

theorem text_unlinked (s : Schema) : s.unlinked.text = s.text := by
  have hnode (d : Declaration) (nested : Script) : d.unlinked.script nested = d.script nested := by
    rw [Declaration.script, Declaration.unlinked_kind, Declaration.unlinked_fields,
      Declaration.unlinked_items, List.map_map]
    rfl
  have hscript : s.unlinked.script = s.script := by
    unfold script
    congr 1
    refine List.flatMap_congr fun root _ => congrArg _ ?_
    exact s.collect_unlinked (fun _ d nested => hnode d nested) root
  rw [text, hscript, text]

/-! ### Types that were found -/

theorem linkType_of_known {s : Schema} {id : Nat} {f : Field} (h : f.type ≠ .unresolved) :
    s.linkType id f = .ok f.type := by
  unfold linkType
  split
  · next hunresolved => exact absurd hunresolved h
  · rfl

/-- A type that was found is found again. -/
theorem linkType_linked {s : Schema} {id : Nat} {f f' : Field} (h : s.linkType id f = .ok f'.type)
    (huntyped : f'.untyped = f.untyped) : s.linkType id f' = .ok f'.type := by
  by_cases hf : f.type = .unresolved
  · by_cases hf' : f'.type = .unresolved
    · -- Nothing was found where a declaration should be, so the field is as it was.
      have hsame : f = f' := by
        rw [← Field.eq_of_untyped huntyped, hf', ← hf]
      rwa [hsame] at h
    · exact linkType_of_known hf'
  · have htype : f'.type = f.type := Except.ok.inj (h.symm.trans (linkType_of_known hf))
    exact linkType_of_known (htype ▸ hf)

theorem linkFields_linked {s : Schema} {id : Nat} {fields fields' : List Field}
    (h : s.linkFields id fields = .ok fields') : s.linkFields id fields' = .ok fields' := by
  refine linkFields_eq_ok_iff.2 (List.forall₂_same.2 fun f' hf' => ?_)
  obtain ⟨f, -, htype, huntyped⟩ := exists_of_forall₂ (linkFields_eq_ok_iff.1 h) hf'
  exact ⟨linkType_linked htype huntyped, rfl⟩

/-- A declaration whose fields have the types that linking gives them. -/
def Settled (s : Schema) (id : Nat) : Prop :=
  s.linkFields id (s.fieldsOf id) = .ok (s.fieldsOf id)

theorem linkFields_of_unlinked_eq {s t : Schema} (h : t.unlinked = s.unlinked) (id : Nat)
    (fields : List Field) : t.linkFields id fields = s.linkFields id fields := by
  rw [← linkFields_unlinked, h, linkFields_unlinked]

theorem settled_withFields {s : Schema} {id : Nat} {fields : List Field}
    (h : s.linkFields id (s.fieldsOf id) = .ok fields) : (s.withFields id fields).Settled id := by
  rw [Settled, fieldsOf_withFields h, linkFields_of_unlinked_eq (unlinked_withFields h)]
  exact linkFields_linked h

/-- Linking another declaration keeps what is settled. -/
theorem Settled.withFields {s : Schema} {id k : Nat} {fields : List Field} (hk : s.Settled k)
    (h : s.linkFields id (s.fieldsOf id) = .ok fields) : (s.withFields id fields).Settled k := by
  by_cases hne : id = k
  · exact hne ▸ settled_withFields h
  · rw [Settled, linkFields_withFields hne h, fieldsOf_withFields_of_ne hne]
    exact hk

theorem Settled.linkAll {s : Schema} {k : Nat} (hk : s.Settled k) (ids : List Nat) :
    (s.linkAll ids).schema.Settled k := by
  induction ids generalizing s with
  | nil => exact hk
  | cons id rest ih =>
    rw [linkAll_cons]
    split
    · next fields hfields => exact ih (hk.withFields hfields)
    · exact hk

theorem modify_eq_self {s : Schema} {id : Nat} {change : Declaration → Declaration}
    (h : ∀ d, s.get? id = some d → change d = d) : s.modify id change = s := by
  rw [modify_congr h, modify]
  exact congrArg (Schema.mk s.package s.roots) (List.modify_id id s.declarations)

theorem withFields_fieldsOf (s : Schema) (id : Nat) : s.withFields id (s.fieldsOf id) = s := by
  refine modify_eq_self fun d hd => ?_
  have hfields : s.fieldsOf id = d.body.fields := viewAt_of_get? hd ..
  obtain ⟨name, parent, body, names⟩ := d
  rw [hfields]
  cases body <;> rfl

/-- **What was found is found again**, and what was not found is not: linking types once more
changes nothing and ends with the same problem. -/
theorem linkAll_linkAll (s : Schema) (ids : List Nat) :
    (s.linkAll ids).schema.linkAll ids = s.linkAll ids := by
  induction ids generalizing s with
  | nil => rfl
  | cons id rest ih =>
    cases hfields : s.linkFields id (s.fieldsOf id) with
    | error problem => simp only [linkAll_cons, hfields]
    | ok fields =>
      have hfirst : s.linkAll (id :: rest) = (s.withFields id fields).linkAll rest := by
        rw [linkAll_cons, hfields]
      have hsettled := (settled_withFields hfields).linkAll rest
      rw [hfirst, linkAll_cons, hsettled]
      simp only [withFields_fieldsOf]
      exact ih (s.withFields id fields)

/-! ### Names beside types -/

theorem modify_comm {s : Schema} {id k : Nat} {change change' : Declaration → Declaration}
    (h : ∀ d, change (change' d) = change' (change d)) :
    (s.modify id change).modify k change' = (s.modify k change').modify id change := by
  refine congrArg (Schema.mk s.package s.roots) ?_
  show (s.declarations.modify id change).modify k change' =
    (s.declarations.modify k change').modify id change
  by_cases hne : id = k
  · subst hne
    rw [List.modify_modify_eq, List.modify_modify_eq]
    exact congrArg (s.declarations.modify id) (funext fun d => (h d).symm)
  · exact List.modify_modify_ne _ _ _ hne

theorem pathOf_withFields (s : Schema) (id k : Nat) (fields : List Field) :
    (s.withFields id fields).pathOf k = s.pathOf k := by
  by_cases hne : id = k
  · rw [pathOf, viewAt, withFields, get?_modify, if_pos hne, pathOf, viewAt]
    cases s.get? k <;> rfl
  · exact pathOf_modify_of_ne hne _

/-- Giving names to one declaration and types to another can change places. -/
theorem withFields_assignNames {s : Schema} {id : Nat} {fields : List Field}
    (h : s.linkFields id (s.fieldsOf id) = .ok fields) (p : Prefixes) (k : Nat) :
    (s.assignNames p k).withFields id fields = (s.withFields id fields).assignNames p k := by
  have hchain := nameChain_of_unlinked_eq (unlinked_withFields h) k
  have hpath (parent : Option Nat) (wrapper : String) :
      (s.withFields id fields).pathUnder parent wrapper = s.pathUnder parent wrapper :=
    pathUnder_congr fun q _ => pathOf_withFields s id q fields
  simp only [assignNames, hchain, hpath]
  refine modify_comm fun d => ?_
  obtain ⟨name, parent, body, names⟩ := d
  cases body <;> rfl

theorem linkAll_assignNames (s : Schema) (p : Prefixes) (k : Nat) (ids : List Nat) :
    (s.assignNames p k).linkAll ids =
      ⟨(s.linkAll ids).schema.assignNames p k, (s.linkAll ids).problem⟩ := by
  induction ids generalizing s with
  | nil => rfl
  | cons id rest ih =>
    have hsame : (s.assignNames p k).linkFields id ((s.assignNames p k).fieldsOf id) =
        s.linkFields id (s.fieldsOf id) := by
      rw [fieldsOf_assignNames, linkFields_of_unlinked_eq (unlinked_assignNames p s k)]
    rw [linkAll_cons, linkAll_cons, hsame]
    cases hfields : s.linkFields id (s.fieldsOf id) with
    | error problem => rfl
    | ok fields => simp only [withFields_assignNames hfields, ih]

theorem linkAll_foldl_assignNames (s : Schema) (p : Prefixes) (named ids : List Nat) :
    (named.foldl (assignNames p) s).linkAll ids =
      ⟨named.foldl (assignNames p) (s.linkAll ids).schema, (s.linkAll ids).problem⟩ := by
  induction named generalizing s with
  | nil => rfl
  | cons k rest ih => rw [List.foldl_cons, ih, linkAll_assignNames, List.foldl_cons]

/-- Names can be given before the types are linked or after. -/
theorem linkAll_withNames (s : Schema) (p : Prefixes) (ids : List Nat) :
    (s.withNames p).linkAll ids =
      ⟨(s.linkAll ids).schema.withNames p, (s.linkAll ids).problem⟩ := by
  rw [withNames, linkAll_foldl_assignNames, withNames,
    listed_of_unlinked_eq (unlinked_linkAll s ids)]

/-! ### Names once more -/

theorem names_foldl_assignNames_of_not_mem {s : Schema} {p : Prefixes} {ids : List Nat} {id : Nat}
    (h : id ∉ ids) :
    ((ids.foldl (assignNames p) s).get? id).map (·.names) = (s.get? id).map (·.names) := by
  induction ids generalizing s with
  | nil => rfl
  | cons k rest ih =>
    obtain ⟨hne, hrest⟩ := not_or.1 (List.mem_cons.not.1 h)
    rw [List.foldl_cons, ih hrest, assignNames, get?_modify, if_neg (Ne.symm hne)]

/-- A schema is its names, its fields, and what linking leaves alone. -/
theorem eq_of_unlinked_eq {s t : Schema} (h : t.unlinked = s.unlinked)
    (hnames : ∀ id, (t.get? id).map (·.names) = (s.get? id).map (·.names))
    (hfields : ∀ id, t.fieldsOf id = s.fieldsOf id) : t = s := by
  have hget (id : Nat) : t.get? id = s.get? id := by
    cases hd : s.get? id with
    | none =>
      have := hnames id
      rw [hd] at this
      exact Option.map_eq_none_iff.1 this
    | some d =>
      obtain ⟨e, he, heq⟩ := exists_unlinked_eq h.symm hd
      have hsame : e.names = d.names := by
        have := hnames id
        rw [hd, he] at this
        exact Option.some.inj this
      have htypes : e.fields = d.fields := by
        have := hfields id
        rwa [fieldsOf, viewAt_of_get? he, fieldsOf, viewAt_of_get? hd] at this
      rw [he, Declaration.eq_of_unlinked heq htypes hsame]
  have hpackage : t.unlinked.package = s.unlinked.package := by rw [h]
  have hroots := roots_of_unlinked_eq h
  have hdeclarations : t.declarations = s.declarations := List.ext_getElem? hget
  obtain ⟨package, roots, declarations⟩ := t
  obtain ⟨package', roots', declarations'⟩ := s
  simp_all [unlinked]

/-- **Names are given anew**: those of an earlier linking leave no trace, as the same
declarations are listed and their paths begin with new names. -/
theorem Grounded.withNames_withNames {s : Schema} (hs : s.Grounded) (p q : Prefixes) :
    (s.withNames p).withNames q = s.withNames q := by
  have hunlinked := unlinked_withNames s p
  have hlisted := listed_of_unlinked_eq hunlinked
  refine eq_of_unlinked_eq ?_ (fun id => ?_) fun id => ?_
  · rw [unlinked_withNames, unlinked_withNames, unlinked_withNames]
  · by_cases hid : id ∈ s.listed
    · obtain ⟨d, hd⟩ := exists_get? (hs.staysInside.listed id hid)
      obtain ⟨e, he, -, hkind⟩ := exists_get?_of_unlinked_eq hunlinked hd
      have hfirst := hs.namesAfter_listed q hid hd
      have hsecond := (hs.withNames p).namesAfter_listed q (hlisted ▸ hid) he
      rw [namesAfter_eq] at hfirst hsecond
      rw [hfirst, hsecond, hkind, nameChain_of_unlinked_eq hunlinked]
    · have hid' : id ∉ (s.withNames p).listed := hlisted ▸ hid
      rw [Schema.withNames, names_foldl_assignNames_of_not_mem hid', Schema.withNames,
        Schema.withNames, names_foldl_assignNames_of_not_mem hid,
        names_foldl_assignNames_of_not_mem hid]
  · rw [fieldsOf_withNames, fieldsOf_withNames, fieldsOf_withNames]

/-- **Linking forgets the linking before it, and touches nothing else.** However a schema comes
about, and whether linking comes to its end or not: it changes the names for generated code and
the types of fields only, so the schema has the same text as before; and linking it again with
other prefixes leaves the schema, and ends with the problem, that these prefixes lead to alone. -/
theorem Reached.link_link {s : Schema} (h : s.Reached) (p q : Prefixes) :
    (s.link p).schema.unlinked = s.unlinked ∧ (s.link p).schema.text = s.text ∧
      (s.link p).schema.link q = s.link q := by
  have hunlinked := unlinked_link s p
  refine ⟨hunlinked, ?_, ?_⟩
  · rw [← text_unlinked, hunlinked, text_unlinked]
  · have htypes : (s.link p).schema = (s.linkAll s.listed).schema.withNames p := by
      rw [link, linkAll_withNames]
    have hgrounded : (s.linkAll s.listed).schema.Grounded := h.grounded.linkAll s.listed
    calc (s.link p).schema.link q
      _ = ((s.link p).schema.withNames q).linkAll s.listed := by
        rw [link, listed_of_unlinked_eq hunlinked]
      _ = ((s.linkAll s.listed).schema.withNames q).linkAll s.listed := by
        rw [htypes, hgrounded.withNames_withNames]
      _ = ⟨(s.linkAll s.listed).schema.withNames q, (s.linkAll s.listed).problem⟩ := by
        rw [linkAll_withNames, linkAll_linkAll]
      _ = s.link q := by rw [link, linkAll_withNames]

/-- A message with one of its own as a field, in which a type is not found. -/
def halfLinked : Schema :=
  (⟨none, .message "A" [.declare (some .optional) "B" "b" 1 none]
    (.message "B" [.declare none "Nowhere" "n" 1 none] .nil .nil) .nil⟩ : Document).toSchema

/-- The first linking names both messages and finds one type of two. -/
theorem Reached.link_link_half :
    halfLinked.Reached ∧
    (halfLinked.link ⟨"W", "P"⟩).problem = some (.unresolvedType ["A", "B"] "n" "Nowhere") ∧
    (halfLinked.link ⟨"W", "P"⟩).schema.get? 0 =
      some ⟨"A", none, .message [1] [⟨"b", 1, some .optional, "B", none, .message 1⟩],
        ⟨"WA", "WA", "P_A"⟩⟩ ∧
    (halfLinked.link ⟨"W", "P"⟩).schema.text = halfLinked.text ∧
    (halfLinked.link ⟨"W", "P"⟩).schema.link ⟨"V", ""⟩ = halfLinked.link ⟨"V", ""⟩ := by
  have hlines : ofLines [⟨"message A \x7b", 1⟩, ⟨"optional B b = 1;", 2⟩, ⟨"message B \x7b", 3⟩,
      ⟨"Nowhere n = 1;", 4⟩, ⟨"\x7d", 5⟩, ⟨"\x7d", 6⟩] = .ok halfLinked := by rfl
  have hreached : halfLinked.Reached := .single (.replace hlines)
  obtain ⟨-, htext, hlink⟩ := Reached.link_link hreached ⟨"W", "P"⟩ ⟨"V", ""⟩
  exact ⟨hreached, by decide +kernel, by decide +kernel, htext, hlink⟩

end Schema
end SwiftWrap
