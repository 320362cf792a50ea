import SwiftWrap.Proofs.Concatenation
import SwiftWrap.Proofs.Scope

/-! What a name means before more declarations are added.

Declarations behind a schema have greater numbers than those in it, and only the file scope
lists them. So a declaration of the schema has the same tiers in its searches as before, but
for the last, that of the file scope, which gets the new roots behind its own
(`IsForest.exists_tiers_append`). A name that was found is therefore found again or becomes
ambiguous, and it can become ambiguous only in the file scope and by a new root of that name
(`Schema.resolve_of_appended`). -/
namespace SwiftWrap
namespace Schema

/-- The numbers that the roots of a schema get behind another. -/
def addedRoots (s t : Schema) : List Nat := t.roots.map (· + s.declarations.length)

/-- The name is met before the search gets to the file scope. -/
def DecidedInside (s : Schema) (id : Nat) (name : String) : Prop :=
  ∃ k m, s.IsScope id k none ∧ s.FirstLevel id name m ∧ m ≤ k

/-- The roots of the second schema come behind those of the first. -/
theorem roots_append (s t : Schema) : (s ++ t).roots = s.roots ++ s.addedRoots t := rfl

/-- They have the greater numbers. -/
theorem le_of_mem_addedRoots {s t : Schema} {id : Nat} (h : id ∈ s.addedRoots t) :
    s.declarations.length ≤ id := by
  obtain ⟨root, -, rfl⟩ := List.mem_map.1 h
  exact Nat.le_add_left ..

/-! ### What stays the same -/

/-- Declarations of the first schema stay where they are. -/
theorem get?_append_left {s : Schema} {id : Nat} (h : id < s.declarations.length) (t : Schema) :
    (s ++ t).get? id = s.get? id :=
  List.getElem?_append_left h

/-- Those of the second stand behind them, with all their numbers shifted. -/
theorem get?_append_right (s t : Schema) (id : Nat) :
    (s ++ t).get? (id + s.declarations.length) =
      (t.get? id).map (Declaration.renumber (· + s.declarations.length)) := by
  have hright : (s ++ t).get? (id + s.declarations.length) = _ :=
    List.getElem?_append_right (Nat.le_add_left ..)
  rw [hright, Nat.add_sub_cancel, List.getElem?_map]
  rfl

theorem viewAt_append_left {s : Schema} {id : Nat} (h : id < s.declarations.length) (t : Schema)
    (otherwise : α) (view : Declaration → α) :
    (s ++ t).viewAt id otherwise view = s.viewAt id otherwise view := by
  rw [viewAt, viewAt, get?_append_left h]

theorem nameOf_append_left {s : Schema} {id : Nat} (h : id < s.declarations.length) (t : Schema) :
    (s ++ t).nameOf id = s.nameOf id :=
  viewAt_append_left h t ..

theorem parentOf_append_left {s : Schema} {id : Nat} (h : id < s.declarations.length)
    (t : Schema) : (s ++ t).parentOf id = s.parentOf id :=
  viewAt_append_left h t ..

theorem nameOf_append_right (s t : Schema) (id : Nat) :
    (s ++ t).nameOf (id + s.declarations.length) = t.nameOf id := by
  unfold nameOf viewAt
  rw [get?_append_right]
  cases t.get? id <;> rfl

/-- Nothing is put around a declaration. -/
theorem enclosing_append {s : Schema} {id : Nat} (h : id < s.declarations.length) (t : Schema) :
    (s ++ t).enclosing id = s.enclosing id := by
  induction id using Nat.strongRecOn with
  | _ id ih =>
    rw [enclosing, enclosing, viewAt_append_left h]
    split
    · rfl
    · next parent _ =>
      split
      · next hlt => rw [ih parent hlt (Nat.lt_trans hlt h)]
      · rfl

namespace IsForest
variable {s : Schema}

theorem lt_of_isParent (hs : s.IsForest) {p id : Nat} (h : s.IsParent p id) :
    p < s.declarations.length := by
  obtain ⟨-, d, hd⟩ := hs.isParent_lt h
  exact lt_of_get? hd

/-- Nor is anything put below one: children are those of the same schema. -/
theorem collect_append (hs : s.IsForest) (t : Schema) {node : Nat → Declaration → List α → List α}
    {id : Nat} (h : id < s.declarations.length) :
    (s ++ t).collect node id = s.collect node id := by
  induction id using s.downward_induction with
  | step id ih =>
    obtain ⟨d, hd⟩ := exists_get? h
    rw [collect_of_get? hd, collect_of_get? ((get?_append_left h t).trans hd)]
    congr 1
    refine List.flatMap_congr fun c hc => ?_
    split
    · next hlt =>
      obtain ⟨e, he, -⟩ := hs.child id d hd c hc
      exact ih h c hlt (lt_of_get? he)
    · rfl

theorem below_append (hs : s.IsForest) (t : Schema) {id : Nat} (h : id < s.declarations.length) :
    (s ++ t).below id = s.below id := by
  rw [below, subtree, hs.collect_append t h]
  rfl

/-- Beside a nested declaration stands what stood there. -/
theorem beside_append_of_parent (hs : s.IsForest) (t : Schema) {id parent : Nat}
    (hparent : s.parentOf id = some parent) : (s ++ t).beside id = s.beside id := by
  obtain ⟨d, hd, -⟩ := parentOf_eq_some_iff.1 hparent
  rw [beside_eq, beside_eq, parentOf_append_left (lt_of_get? hd), hparent]
  exact viewAt_append_left (hs.lt_of_isParent hparent) t ..

/-- Only at file scope there is more, and it comes last. -/
theorem beside_append_of_root {id : Nat} (h : id < s.declarations.length)
    (hroot : s.parentOf id = none) (t : Schema) :
    (s ++ t).beside id = s.beside id ++ s.addedRoots t := by
  rw [beside_eq, beside_eq, parentOf_append_left h, hroot]
  exact roots_append s t

/-! ### Tiers -/

/-- Of what encloses a declaration, all have parents but the last. -/
theorem parentOf_of_enclosing (hs : s.IsForest) {id top : Nat} {inner : List Nat}
    (h : s.enclosing id = inner ++ [top]) :
    s.parentOf top = none ∧ ∀ a ∈ inner, ∃ parent, s.parentOf a = some parent := by
  have hnext := hs.getElem?_enclosing_succ id
  constructor
  · have hlast := hnext inner.length
    rw [h, List.getElem?_concat_length, List.getElem?_eq_none (by simp)] at hlast
    exact hlast.symm
  · intro a ha
    obtain ⟨k, hk⟩ := List.getElem?_of_mem ha
    have hlt := (List.getElem?_eq_some_iff.1 hk).1
    have houter := hnext k
    rw [h, List.getElem?_append_left hlt, hk] at houter
    obtain ⟨parent, hparent⟩ : ∃ parent, (inner ++ [top])[k + 1]? = some parent :=
      ⟨_, List.getElem?_eq_getElem (by simpa using hlt)⟩
    exact ⟨parent, houter.symm.trans hparent⟩

/-- A declaration without anything around it has no parent. -/
theorem enclosing_eq_nil_iff (hs : s.IsForest) {id : Nat} :
    s.enclosing id = [] ↔ s.parentOf id = none := by
  rw [hs.ascending.enclosing_eq id]
  cases s.parentOf id with
  | none => simp
  | some parent => simp

/-- Only the last tier of a search gets more, and this behind what it has. -/
theorem exists_tiers_append (hs : s.IsForest) (t : Schema) {id : Nat}
    (h : id < s.declarations.length) : ∃ near file, near.length = (s.enclosing id).length + 1 ∧
      s.tiers id = near ++ [file] ∧ (s ++ t).tiers id = near ++ [file ++ s.addedRoots t] := by
  have hbelow := hs.below_append t h
  have henclosing := enclosing_append h t
  rcases List.eq_nil_or_concat' (s.enclosing id) with hnil | ⟨inner, top, heq⟩
  · have hroot := hs.enclosing_eq_nil_iff.1 hnil
    refine ⟨[s.below id], s.beside id, by rw [hnil]; rfl, ?_, ?_⟩
    · rw [tiers, hnil]
      rfl
    · rw [tiers, henclosing, hnil, hbelow, beside_append_of_root h hroot]
      rfl
  · obtain ⟨htop, hinner⟩ := hs.parentOf_of_enclosing heq
    have hlt : top < s.declarations.length :=
      Nat.lt_trans (lt_of_mem_enclosing (heq ▸ List.mem_concat_self)) h
    have hinside : s.parentOf id ≠ none := by
      rw [ne_eq, ← hs.enclosing_eq_nil_iff, heq]
      simp
    obtain ⟨parent, hparent⟩ := Option.ne_none_iff_exists'.1 hinside
    -- The new roots are other declarations than the one that leads to the file scope.
    have hnew : (s.addedRoots t).filter (· ≠ top) = s.addedRoots t := by
      refine List.filter_eq_self.2 fun x hx => decide_eq_true ?_
      have := le_of_mem_addedRoots hx
      omega
    refine ⟨s.below id :: s.beside id :: inner.map fun a => a :: (s.beside a).filter (· ≠ a),
      top :: (s.beside top).filter (· ≠ top), by simp [heq], ?_, ?_⟩
    · simp [tiers, heq]
    · have hsame : (inner.map fun a => a :: ((s ++ t).beside a).filter (· ≠ a)) =
          inner.map fun a => a :: (s.beside a).filter (· ≠ a) := by
        refine List.map_congr_left fun a ha => ?_
        obtain ⟨outer, houter⟩ := hinner a ha
        rw [hs.beside_append_of_parent t houter]
      rw [tiers, henclosing, heq, hbelow, hs.beside_append_of_parent t hparent, List.map_append,
        hsame, List.map_singleton, beside_append_of_root hlt htop, List.filter_append, hnew]
      rfl

end IsForest

/-! ### Answers -/

/-- The tiers behind are asked only if those before them know nothing. -/
theorem firstMatch_append (isMatch : Nat → Bool) (near far : List (List Nat)) :
    firstMatch isMatch (near ++ far) =
      match firstMatch isMatch near with
      | .missing => firstMatch isMatch far
      | answer => answer := by
  induction near with
  | nil => rfl
  | cons tier rest ih =>
    rw [List.cons_append, firstMatch_cons, firstMatch_cons]
    split
    · exact ih
    · next hne =>
      have hanswer := Resolution.ofMatches_ne_missing hne
      cases hmatches : Resolution.ofMatches (tier.filter isMatch) with
      | missing => exact absurd hmatches hanswer
      | _ => rfl

/-- The last tier answers by the number of its matches alone. -/
theorem firstMatch_singleton (isMatch : Nat → Bool) (tier : List Nat) :
    firstMatch isMatch [tier] = .ofMatches (tier.filter isMatch) := by
  rw [firstMatch_cons]
  split
  · next hnil =>
    rw [hnil]
    rfl
  · rfl

/-- An answer depends on nothing but the matches among the candidates. -/
theorem firstMatch_congr {isMatch isMatch' : Nat → Bool} {tiers : List (List Nat)}
    (h : ∀ tier ∈ tiers, ∀ id ∈ tier, isMatch id = isMatch' id) :
    firstMatch isMatch tiers = firstMatch isMatch' tiers := by
  induction tiers with
  | nil => rfl
  | cons tier rest ih =>
    obtain ⟨htier, hrest⟩ := List.forall_mem_cons.1 h
    rw [firstMatch_cons, firstMatch_cons, List.filter_congr htier, ih hrest]

end Schema

/-- An answer keeps what it holds when there is more to choose from: one match is still the
match, or one of several, and several stay. -/
structure Resolution.Keeps (before after : Resolution) : Prop where
  found : ∀ target, before = .found target →
    after = .found target ∨ ∃ candidates, after = .ambiguous candidates ∧ target ∈ candidates
  ambiguous : ∀ candidates, before = .ambiguous candidates →
    ∃ candidates', after = .ambiguous candidates' ∧ candidates ⊆ candidates'

namespace Resolution

theorem Keeps.refl (answer : Resolution) : answer.Keeps answer where
  found _ h := .inl h
  ambiguous candidates h := ⟨candidates, h, List.Subset.refl _⟩

/-- More matches can only make an answer ambiguous, or give one where there was none. -/
theorem ofMatches_keeps (c more : List Nat) : (ofMatches c).Keeps (ofMatches (c ++ more)) := by
  match c with
  | [] => exact ⟨nofun, nofun⟩
  | [x] =>
    refine ⟨fun target h => ?_, nofun⟩
    cases h
    cases more with
    | nil => exact .inl rfl
    | cons y rest => exact .inr ⟨_, rfl, List.mem_cons_self⟩
  | x :: y :: rest =>
    refine ⟨nofun, fun candidates h => ?_⟩
    cases h
    exact ⟨_, rfl, List.subset_append_left ..⟩

end Resolution

namespace Schema

/-- A search in a schema, and the same search when more stands behind it: either a near tier
decides both, or both come to the file scope, where the second has the new roots too. -/
theorem resolve_append_cases {s : Schema} (hs : s.IsForest) (t : Schema) {id : Nat}
    (h : id < s.declarations.length) (name : String) :
    (s ++ t).resolve id name = s.resolve id name ∨
      ¬s.DecidedInside id name ∧ ∃ c, s.resolve id name = .ofMatches c ∧
        (s ++ t).resolve id name =
          .ofMatches (c ++ (s.addedRoots t).filter ((s ++ t).nameOf · == name)) := by
  obtain ⟨near, file, hlength, htiers, htiers'⟩ := hs.exists_tiers_append t h
  have hsame : ∀ tier ∈ s.tiers id, ∀ d ∈ tier,
      (s.nameOf d == name) = ((s ++ t).nameOf d == name) := by
    intro tier htier d hd
    obtain ⟨m, hm⟩ := List.getElem?_of_mem htier
    rw [nameOf_append_left ((hs.mem_tiers_iff h hm).1 hd).lt]
  rw [resolve, resolve, firstMatch_congr hsame, htiers, htiers', firstMatch_append,
    firstMatch_append, firstMatch_singleton, firstMatch_singleton, List.filter_append]
  cases hnear : firstMatch (fun d => (s ++ t).nameOf d == name) near with
  | found target => exact .inl rfl
  | ambiguous candidates => exact .inl rfl
  | missing =>
    refine .inr ⟨fun hx => ?_, _, rfl, rfl⟩
    obtain ⟨k, m, hscope, ⟨⟨d, hlevel, hname⟩, -⟩, hle⟩ := hx
    obtain ⟨tier, htier⟩ := hs.exists_tier hlevel
    have hk := hs.isScope_none hscope
    have hmem : tier ∈ near := by
      rw [htiers, List.getElem?_append_left (by omega)] at htier
      exact List.mem_of_getElem? htier
    have hmatch : d ∈ tier.filter fun d => (s ++ t).nameOf d == name := by
      rw [List.mem_filter, hs.mem_tiers_iff h htier, nameOf_append_left hlevel.lt, hname]
      exact ⟨hlevel, beq_self_eq_true name⟩
    rw [firstMatch_eq_missing_iff.1 hnear tier hmem] at hmatch
    cases hmatch

/-- **Declarations that are added never retarget a name without a word.** Where lines hold a
schema and are followed by more, a name that was found inside one of its declarations is
found again or has become ambiguous, and a name that was ambiguous still is, with the same
candidates at least. Nothing changes if no root among the lines behind has the name, or if it
was met before the file scope. -/
theorem resolve_of_appended {first second : List Line} {s t : Schema}
    (h : ofLines first = .ok s) (h' : ofLines (first ++ second) = .ok t) :
    ∃ added, ofLines second = .ok added ∧ ∀ id < s.declarations.length, ∀ name,
      (s.resolve id name).Keeps (t.resolve id name) ∧
      ((∀ root ∈ added.roots, added.nameOf root ≠ name) ∨ s.DecidedInside id name →
        t.resolve id name = s.resolve id name) := by
  obtain ⟨d, hd, rfl⟩ := ofLines_eq_ok_iff_document.1 h
  obtain ⟨f, hf, rfl⟩ := ofLines_eq_ok_iff_document.1 h'
  obtain ⟨d', e, hd', he, -, rfl⟩ :=
    (Document.ofLines_append_iff (Document.openBlocks_of_ofLines hd)).1 hf
  cases hd.symm.trans hd'
  rw [Document.toSchema_append (Document.asDeclared he)]
  refine ⟨e.toSchema, ofLines_eq_ok_iff_document.2 ⟨e, he, rfl⟩, fun id hid name => ?_⟩
  rcases resolve_append_cases d.isForest e.toSchema hid name with hsame | ⟨hfar, c, hbefore, hafter⟩
  · rw [hsame]
    exact ⟨.refl _, fun _ => rfl⟩
  · refine ⟨by rw [hbefore, hafter]; exact Resolution.ofMatches_keeps .., fun hx => ?_⟩
    rcases hx with hother | hinside
    · have hnone : (d.toSchema.addedRoots e.toSchema).filter
          ((d.toSchema ++ e.toSchema).nameOf · == name) = [] := by
        refine List.filter_eq_nil_iff.2 fun x hx => ?_
        obtain ⟨root, hroot, rfl⟩ := List.mem_map.1 hx
        rw [nameOf_append_right, beq_iff_eq]
        exact hother root hroot
      rw [hafter, hnone, List.append_nil, hbefore]
    · exact absurd hinside hfar

theorem resolve_of_appended_twins :
    (Document.twinSample.toSchema ++ (Document.packaged "p" "X").toSchema).resolve 0 "X" =
      Document.twinSample.toSchema.resolve 0 "X" := by
  have htwins : ofLines twinLines = .ok Document.twinSample.toSchema := by rfl
  have hboth : ofLines (twinLines ++ packagedLines "p" "X") =
      .ok (Document.twinSample.toSchema ++ (Document.packaged "p" "X").toSchema) := by rfl
  have hlevel : Document.twinSample.toSchema.NamedAt 0 "X" 0 2 :=
    ⟨.below (.tail (.single rfl : Relation.TransGen _ 0 1) rfl), rfl⟩
  obtain ⟨added, -, hall⟩ := resolve_of_appended htwins hboth
  exact (hall 0 (by decide) "X").2 (.inr ⟨0, 0, .parent, ⟨⟨2, hlevel⟩, by simp⟩, Nat.le_refl 0⟩)

end Schema
end SwiftWrap
