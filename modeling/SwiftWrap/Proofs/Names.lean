import SwiftWrap.Proofs.Linked
import SwiftWrap.Proofs.Session
import Mathlib.Data.List.Induction

/-! Names follow from chains.

Linking names the listed declarations one after another. A path is put together from the path
that the parent has at that moment, and names may be there already, of a linking with other
prefixes. They never get into a path: parents are listed first, so a parent has its new names
before a child asks for them. What carries the proof is that all declarations named so far have
the names of their chains (`Prefixes.namesOf`), at every place in the list and also when it
holds a declaration twice.

`Reached.names_by_chain` says it of every schema that comes about by edits, whether its types
resolve or not. -/
namespace SwiftWrap

namespace Prefixes

/-- The names of the wrappers for the beginnings of a chain, the shortest first. -/
def wrapperNames (p : Prefixes) (chain : List String) : List String :=
  (List.range chain.length).map fun i => p.wrapperName (chain.take (i + 1))

/-- The names that a chain gives to a declaration of some kind. -/
def namesOf (p : Prefixes) (kind : Kind) (chain : List String) : Names :=
  ⟨p.wrapperName chain, dotted (p.wrapperNames chain), p.wireName kind chain⟩

theorem wrapperNames_concat (p : Prefixes) (chain : List String) (name : String) :
    p.wrapperNames (chain ++ [name]) = p.wrapperNames chain ++ [p.wrapperName (chain ++ [name])] := by
  have hbefore : ∀ i ∈ List.range chain.length,
      p.wrapperName ((chain ++ [name]).take (i + 1)) = p.wrapperName (chain.take (i + 1)) := by
    intro i hi
    rw [List.take_append_of_le_length (List.mem_range.1 hi)]
  have hwhole : (chain ++ [name]).take (chain.length + 1) = chain ++ [name] :=
    List.take_of_length_le (by simp)
  rw [wrapperNames, List.length_append, List.length_singleton, List.range_succ, List.map_append,
    List.map_congr_left hbefore, List.map_singleton, hwhole, wrapperNames]

end Prefixes

namespace Schema

/-- A declaration whose names are those of its chain. -/
def NamedByChain (s : Schema) (p : Prefixes) (id : Nat) : Prop :=
  ∀ d, s.get? id = some d → d.names = p.namesOf d.kind (s.nameChain id)

/-- The names of a declaration once the schema has been linked, up to its end or not. -/
def namesAfter (s : Schema) (p : Prefixes) (id : Nat) : Option Names :=
  ((s.link p).schema.get? id).map (·.names)

/-- Linking leaves names alone once they are given. -/
theorem namesAfter_eq (s : Schema) (p : Prefixes) (id : Nat) :
    s.namesAfter p id = ((s.withNames p).get? id).map (·.names) :=
  get?_linkAll_names ..

theorem nameChain_ne_nil (s : Schema) (id : Nat) : s.nameChain id ≠ [] := by
  simp [nameChain]

namespace Grounded
variable {s : Schema} (hs : s.Grounded)
include hs

/-- The chain of a declaration is its parent's and one more name. -/
theorem nameChain_eq (id : Nat) : s.nameChain id =
    (match s.parentOf id with
      | none => []
      | some parent => s.nameChain parent) ++ [s.nameOf id] :=
  hs.ascending.chain_eq s.nameOf id

/-- A path that is put behind the parent's is the path of the chain, if the parent's is. -/
theorem pathUnder_eq {p : Prefixes} {id : Nat} {d : Declaration} (hd : s.get? id = some d)
    (hparent : ∀ parent, s.IsParent parent id → s.NamedByChain p parent) :
    s.pathUnder d.parent (p.wrapperName (s.nameChain id)) =
      dotted (p.wrapperNames (s.nameChain id)) := by
  have hlink : s.parentOf id = d.parent := viewAt_of_get? hd ..
  rw [hs.nameChain_eq id, p.wrapperNames_concat, hlink]
  cases hq : d.parent with
  | none => rfl
  | some q =>
    have hisParent : s.IsParent q id := hlink.trans hq
    obtain ⟨e, he⟩ := exists_get? (hs.has_parent hisParent)
    have hpath : s.pathOf q = dotted (p.wrapperNames (s.nameChain q)) := by
      rw [pathOf, viewAt_of_get? he, hparent q hisParent e he]
      rfl
    have hne : p.wrapperNames (s.nameChain q) ≠ [] := by
      simp [Prefixes.wrapperNames, nameChain_ne_nil]
    rw [pathUnder, hpath, dotted_concat hne]

/-- One more declaration gets the names of its chain, and those that have theirs keep them. -/
theorem namedByChain_assignNames {p : Prefixes} {k : Nat}
    (hparent : ∀ parent, s.IsParent parent k → s.NamedByChain p parent) {id : Nat}
    (h : id = k ∨ s.NamedByChain p id) : (s.assignNames p k).NamedByChain p id := by
  intro d hd
  rw [nameChain_of_unlinked_eq (unlinked_assignNames p s k)]
  rw [Schema.assignNames, get?_modify] at hd
  split at hd
  · next heq =>
    subst heq
    obtain ⟨e, he, rfl⟩ := Option.map_eq_some_iff.1 hd
    have hpath := hs.pathUnder_eq he hparent
    simp only [Prefixes.namesOf, hpath]
    rfl
  · next hne => exact h.resolve_left (Ne.symm hne) d hd

/-- **What has been named so far has the names of its chain.** The parent of the next declaration
is among it. -/
theorem namedByChain_foldl (p : Prefixes) {before after : List Nat}
    (h : s.listed = before ++ after) :
    ∀ id ∈ before, (before.foldl (Schema.assignNames p) s).NamedByChain p id := by
  induction before using List.reverseRecOn generalizing after with
  | nil => simp
  | append_singleton before k ih =>
    have hsplit : s.listed = before ++ k :: after := by rw [h, List.append_assoc]; rfl
    have hnamed := ih hsplit
    have hunlinked := unlinked_foldl_assignNames p s before
    have hgrounded : (before.foldl (Schema.assignNames p) s).Grounded :=
      hs.foldl_assignNames p before
    intro id hid
    rw [List.foldl_append, List.foldl_cons, List.foldl_nil]
    refine hgrounded.namedByChain_assignNames (fun parent hparent => ?_) ?_
    · rw [IsParent, ← parentOf_unlinked, hunlinked, parentOf_unlinked] at hparent
      exact hnamed parent (hs.listed_parent_first hsplit hparent)
    · rcases List.mem_append.1 hid with hbefore | hlast
      · exact .inr (hnamed id hbefore)
      · exact .inl (List.mem_singleton.1 hlast)

theorem namesAfter_listed (p : Prefixes) {id : Nat} (hid : id ∈ s.listed) {d : Declaration}
    (hd : s.get? id = some d) :
    s.namesAfter p id = some (p.namesOf d.kind (s.nameChain id)) := by
  have hunlinked := unlinked_withNames s p
  have hnamed : (s.withNames p).NamedByChain p id :=
    hs.namedByChain_foldl p (List.append_nil _).symm id hid
  obtain ⟨e, he, -, hkind⟩ := exists_get?_of_unlinked_eq hunlinked hd
  rw [namesAfter_eq, he, Option.map_some, hnamed e he, hkind, nameChain_of_unlinked_eq hunlinked]

end Grounded

/-- **Names follow from the chain alone.** However a schema comes about, and whether linking comes
to its end or not: afterwards each listed declaration has the names of its chain. So they are the
same if it was linked before with other prefixes, and the same as those of any other declaration of
its kind under the same chain, in this schema or another. -/
theorem Reached.names_by_chain {s : Schema} (h : s.Reached) (p : Prefixes) {id : Nat}
    (hid : id ∈ s.listed) :
    ∃ d, s.get? id = some d ∧
      s.namesAfter p id = some (p.namesOf d.kind (s.nameChain id)) ∧
      (∀ q, (s.link q).schema.namesAfter p id = s.namesAfter p id) ∧
      ∀ {t : Schema} {k : Nat} {e : Declaration}, t.Reached → k ∈ t.listed → t.get? k = some e →
        e.kind = d.kind → t.nameChain k = s.nameChain id →
        t.namesAfter p k = s.namesAfter p id := by
  have hs := h.grounded
  obtain ⟨d, hd⟩ := exists_get? (hs.staysInside.listed id hid)
  have hnames := hs.namesAfter_listed p hid hd
  have hsame {t : Schema} {k : Nat} {e : Declaration} (ht : t.Grounded) (hk : k ∈ t.listed)
      (he : t.get? k = some e) (hkind : e.kind = d.kind)
      (hchain : t.nameChain k = s.nameChain id) : t.namesAfter p k = s.namesAfter p id := by
    rw [ht.namesAfter_listed p hk he, hnames, hkind, hchain]
  refine ⟨d, hd, hnames, fun q => ?_, fun ht => hsame ht.grounded⟩
  have hunlinked := unlinked_link s q
  have hlisted : (s.link q).schema.listed = s.listed := by
    rw [← listed_unlinked, hunlinked, listed_unlinked]
  obtain ⟨e, he, -, hkind⟩ := exists_get?_of_unlinked_eq hunlinked hd
  exact hsame (hs.link q) (hlisted ▸ hid) he hkind (nameChain_of_unlinked_eq hunlinked id)

/-- An enum that is listed twice, in a schema that has been linked with other prefixes and that
does not link. -/
theorem Reached.names_by_chain_renamed :
    let s := tangled.setFieldType 0 0 .unresolved
    s.Reached ∧ 1 ∈ s.listed ∧ (s.link ⟨"Q", ""⟩).problem.isSome ∧
      s.get? 1 = some ⟨"E", some 0, .enumeration [], ⟨"WAE", "WA.WAE", "P_A.E"⟩⟩ ∧
      s.namesAfter ⟨"Q", ""⟩ 1 = some ⟨"QAE", "QA.QAE", "A.E"⟩ := by
  have hreached : (tangled.setFieldType 0 0 .unresolved).Reached :=
    reached_tangled.tail (.setFieldType 0 0 .unresolved fun _ h => nomatch h)
  have hlisted : 1 ∈ (tangled.setFieldType 0 0 .unresolved).listed := by decide +kernel
  have hget : (tangled.setFieldType 0 0 .unresolved).get? 1 =
      some ⟨"E", some 0, .enumeration [], ⟨"WAE", "WA.WAE", "P_A.E"⟩⟩ := by decide +kernel
  have hchain : (⟨"Q", ""⟩ : Prefixes).namesOf .enumeration
      ((tangled.setFieldType 0 0 .unresolved).nameChain 1) = ⟨"QAE", "QA.QAE", "A.E"⟩ := by
    decide +kernel
  obtain ⟨d, hd, hnames, -⟩ := Reached.names_by_chain hreached ⟨"Q", ""⟩ hlisted
  cases hget.symm.trans hd
  exact ⟨hreached, hlisted, by decide +kernel, hget, hnames.trans (congrArg some hchain)⟩

end Schema
end SwiftWrap
