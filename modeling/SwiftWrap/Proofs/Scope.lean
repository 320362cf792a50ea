import SwiftWrap.Schema.Traversal
import SwiftWrap.Proofs.Forest
import SwiftWrap.Proofs.Grammar

/-! What a name means inside a declaration.

The candidates have levels, given by parents alone (`Schema.HasLevel`): what lies below the
declaration has level zero, and what has the same parent as one of the declarations around
it, or is in the file scope, has the level of that scope. In a forest the tiers of a search
are the levels, without repetition (`mem_tiers_iff`), and no declaration has two of them
(`level_unique`).

So a search answers by the first level at which the name occurs
(`Schema.resolve_by_levels`). -/
namespace SwiftWrap

/-! ### Levels -/

namespace Schema

/-- The scopes around a declaration, counted outward from that of its parent. The file scope
is the last. -/
inductive IsScope (s : Schema) (id : Nat) : Nat → Option Nat → Prop where
  | parent : IsScope s id 0 (s.parentOf id)
  | outward {k around : Nat} (h : IsScope s id k (some around)) :
      IsScope s id (k + 1) (s.parentOf around)

/-- The level of a declaration as it is seen from inside another. -/
inductive HasLevel (s : Schema) (id : Nat) : Nat → Nat → Prop where
  | below {d : Nat} (h : Relation.TransGen s.IsParent id d) : HasLevel s id 0 d
  | beside {k d : Nat} (hd : d < s.declarations.length) (h : IsScope s id k (s.parentOf d)) :
      HasLevel s id (k + 1) d

/-- A declaration of a given name at a given level. -/
def NamedAt (s : Schema) (id : Nat) (name : String) (level d : Nat) : Prop :=
  s.HasLevel id level d ∧ s.nameOf d = name

/-- The first level at which a name occurs. -/
def FirstLevel (s : Schema) (id : Nat) (name : String) (level : Nat) : Prop :=
  (∃ d, s.NamedAt id name level d) ∧ ∀ k < level, ∀ d, ¬s.NamedAt id name k d

theorem isScope_zero_iff {s : Schema} {id : Nat} {scope : Option Nat} :
    s.IsScope id 0 scope ↔ scope = s.parentOf id := by
  constructor
  · intro h
    cases h
    rfl
  · intro heq
    subst heq
    exact .parent

theorem isScope_succ_iff {s : Schema} {id k : Nat} {scope : Option Nat} :
    s.IsScope id (k + 1) scope ↔
      ∃ around, s.IsScope id k (some around) ∧ scope = s.parentOf around := by
  constructor
  · intro h
    cases h with
    | outward h => exact ⟨_, h, rfl⟩
  · intro hx
    obtain ⟨around, h, rfl⟩ := hx
    exact .outward h

namespace IsForest
variable {s : Schema}

/-! ### What is around a declaration -/

/-- Going outward by one is going to the parent. -/
theorem getElem?_enclosing_succ (hs : s.IsForest) (id k : Nat) :
    (s.enclosing id)[k + 1]? = (s.enclosing id)[k]?.bind s.parentOf := by
  induction k generalizing id with
  | zero =>
    rw [hs.ascending.enclosing_eq id]
    cases s.parentOf id with
    | none => rfl
    | some parent =>
      simp only [List.getElem?_cons_succ, List.getElem?_cons_zero, Option.bind_some]
      rw [hs.ascending.enclosing_eq parent]
      cases s.parentOf parent <;> rfl
  | succ k ih =>
    rw [hs.ascending.enclosing_eq id]
    cases s.parentOf id with
    | none => rfl
    | some parent => exact ih parent

theorem isScope_some_iff (hs : s.IsForest) {id k around : Nat} :
    s.IsScope id k (some around) ↔ (s.enclosing id)[k]? = some around := by
  induction k generalizing around with
  | zero =>
    rw [isScope_zero_iff, hs.ascending.enclosing_eq id]
    cases s.parentOf id <;> simp [eq_comm]
  | succ k ih =>
    rw [isScope_succ_iff, hs.getElem?_enclosing_succ, Option.bind_eq_some_iff]
    exact exists_congr fun a => and_congr ih eq_comm

/-- The file scope comes behind all declarations. -/
theorem isScope_none (hs : s.IsForest) {id k : Nat} (h : s.IsScope id k none) :
    k = (s.enclosing id).length := by
  cases k with
  | zero =>
    rw [hs.ascending.enclosing_eq id, ← isScope_zero_iff.1 h]
    rfl
  | succ k =>
    obtain ⟨around, hscope, hparent⟩ := isScope_succ_iff.1 h
    have hk := hs.isScope_some_iff.1 hscope
    have hend : (s.enclosing id)[k + 1]? = none := by
      rw [hs.getElem?_enclosing_succ, hk]
      exact hparent.symm
    have hlt := (List.getElem?_eq_some_iff.1 hk).1
    have hle := List.getElem?_eq_none_iff.1 hend
    omega

theorem nodup_enclosing (hs : s.IsForest) (id : Nat) : (s.enclosing id).Nodup := by
  induction id using Nat.strongRecOn with
  | _ id ih =>
    rw [hs.ascending.enclosing_eq id]
    split
    · exact List.nodup_nil
    · next parent hparent =>
      refine List.nodup_cons.2 ⟨fun hmem => ?_, ih parent (hs.isParent_lt hparent).1⟩
      exact absurd (lt_of_mem_enclosing hmem) (Nat.lt_irrefl parent)

/-- No two scopes around a declaration are the same. -/
theorem isScope_unique (hs : s.IsForest) {id k k' : Nat} {scope : Option Nat}
    (h : s.IsScope id k scope) (h' : s.IsScope id k' scope) : k = k' := by
  cases scope with
  | none => rw [hs.isScope_none h, hs.isScope_none h']
  | some around =>
    have hk := hs.isScope_some_iff.1 h
    have hk' := hs.isScope_some_iff.1 h'
    have hlt := (List.getElem?_eq_some_iff.1 hk).1
    exact (List.getElem?_inj hlt (hs.nodup_enclosing id)).1 (hk.trans hk'.symm)

/-! ### Levels and tiers -/

theorem lt_of_below (hs : s.IsForest) {id d : Nat} (h : Relation.TransGen s.IsParent id d) :
    id < d := by
  induction h with
  | single h => exact (hs.isParent_lt h).1
  | tail _ h ih => exact Nat.lt_trans ih (hs.isParent_lt h).1

/-- What lies below a declaration is in no scope around it. -/
theorem not_isScope_of_below (hs : s.IsForest) {id d k : Nat}
    (h : Relation.TransGen s.IsParent id d) : ¬s.IsScope id k (s.parentOf d) := by
  obtain ⟨parent, hparent, hle⟩ : ∃ parent, s.parentOf d = some parent ∧ id ≤ parent := by
    cases h with
    | single h => exact ⟨id, h, Nat.le_refl id⟩
    | tail h hparent => exact ⟨_, hparent, Nat.le_of_lt (hs.lt_of_below h)⟩
  rw [hparent, hs.isScope_some_iff]
  intro hk
  have := lt_of_mem_enclosing (List.mem_of_getElem? hk)
  omega

/-- No declaration has two levels. -/
theorem level_unique (hs : s.IsForest) {id d m m' : Nat} (h : s.HasLevel id m d)
    (h' : s.HasLevel id m' d) : m = m' := by
  cases h with
  | below h =>
    cases h' with
    | below => rfl
    | beside _ h' => exact absurd h' (hs.not_isScope_of_below h)
  | beside _ h =>
    cases h' with
    | below h' => exact absurd h (hs.not_isScope_of_below h')
    | beside _ h' => rw [hs.isScope_unique h h']

theorem getElem?_tiers_outer (s : Schema) (id k : Nat) : (s.tiers id)[k + 2]? =
    (s.enclosing id)[k]?.map fun a => a :: (s.beside a).filter (· ≠ a) :=
  List.getElem?_map ..

/-- What is listed beside a declaration around, with that declaration in front. -/
theorem mem_outer_tier_iff (hs : s.IsForest) {a d : Nat} (ha : a < s.declarations.length) :
    d ∈ a :: (s.beside a).filter (· ≠ a) ↔
      d < s.declarations.length ∧ s.parentOf d = s.parentOf a := by
  rw [List.mem_cons, List.mem_filter, hs.mem_beside_iff, decide_eq_true_eq]
  constructor
  · rintro (rfl | ⟨h, -⟩)
    · exact ⟨ha, rfl⟩
    · exact h
  · intro h
    by_cases hd : d = a
    · exact .inl hd
    · exact .inr ⟨h, hd⟩

/-- The tiers of a search are the levels. -/
theorem mem_tiers_iff (hs : s.IsForest) {id m : Nat} {tier : List Nat}
    (hid : id < s.declarations.length) (h : (s.tiers id)[m]? = some tier) {d : Nat} :
    d ∈ tier ↔ s.HasLevel id m d := by
  match m with
  | 0 =>
    cases h
    rw [hs.mem_below_iff]
    refine ⟨.below, fun hlevel => ?_⟩
    cases hlevel with
    | below h => exact h
  | 1 =>
    cases h
    rw [hs.mem_beside_iff]
    constructor
    · intro hx
      obtain ⟨hlt, hparent⟩ := hx
      exact .beside hlt (isScope_zero_iff.2 hparent)
    · intro hlevel
      cases hlevel with
      | beside hlt hscope => exact ⟨hlt, isScope_zero_iff.1 hscope⟩
  | k + 2 =>
    rw [getElem?_tiers_outer] at h
    obtain ⟨a, ha, rfl⟩ := Option.map_eq_some_iff.1 h
    have hscope := hs.isScope_some_iff.2 ha
    rw [hs.mem_outer_tier_iff (Nat.lt_trans (lt_of_mem_enclosing (List.mem_of_getElem? ha)) hid)]
    constructor
    · intro hx
      obtain ⟨hlt, hparent⟩ := hx
      exact .beside hlt (isScope_succ_iff.2 ⟨a, hscope, hparent⟩)
    · intro hlevel
      cases hlevel with
      | beside hlt h =>
        obtain ⟨b, hb, hparent⟩ := isScope_succ_iff.1 h
        rw [hs.isScope_some_iff, ha] at hb
        cases hb
        exact ⟨hlt, hparent⟩

theorem nodup_tiers (hs : s.IsForest) {id : Nat} {tier : List Nat} (h : tier ∈ s.tiers id) :
    tier.Nodup := by
  rcases List.mem_cons.1 h with rfl | h
  · exact hs.nodup_below id
  rcases List.mem_cons.1 h with rfl | h
  · exact hs.nodup_beside id
  obtain ⟨a, -, rfl⟩ := List.mem_map.1 h
  exact List.nodup_cons.2 ⟨by simp, (hs.nodup_beside a).filter _⟩

/-- There is a tier for every level that is taken. -/
theorem exists_tier (hs : s.IsForest) {id m d : Nat} (h : s.HasLevel id m d) :
    ∃ tier, (s.tiers id)[m]? = some tier := by
  match m with
  | 0 => exact ⟨_, rfl⟩
  | 1 => exact ⟨_, rfl⟩
  | k + 2 =>
    cases h with
    | beside _ h =>
      obtain ⟨a, hscope, -⟩ := isScope_succ_iff.1 h
      rw [getElem?_tiers_outer, hs.isScope_some_iff.1 hscope]
      exact ⟨_, rfl⟩

end IsForest
end Schema

/-! ### Matches -/

/-- The verdict of the matches in one tier. -/
def Resolution.ofMatches : List Nat → Resolution
  | [] => .missing
  | [id] => .found id
  | candidates => .ambiguous candidates

namespace Resolution

theorem ofMatches_ne_missing {c : List Nat} (h : c ≠ []) : ofMatches c ≠ .missing := by
  match c with
  | [] => exact absurd rfl h
  | [_] => simp [ofMatches]
  | _ :: _ :: _ => simp [ofMatches]

theorem eq_of_ofMatches_found {c : List Nat} {t : Nat} (h : ofMatches c = .found t) : c = [t] := by
  match c with
  | [] => cases h
  | [_] => cases h; rfl
  | _ :: _ :: _ => cases h

theorem eq_of_ofMatches_ambiguous {c c' : List Nat} (h : ofMatches c = .ambiguous c') : c = c' := by
  match c with
  | [] => cases h
  | [_] => cases h
  | _ :: _ :: _ => exact ambiguous.inj h

theorem ofMatches_eq_found_iff {c : List Nat} {t : Nat} (hc : c.Nodup) :
    ofMatches c = .found t ↔ ∀ d, d ∈ c ↔ d = t := by
  match c with
  | [] =>
    refine ⟨by simp [ofMatches], fun h => ?_⟩
    exact absurd ((h t).2 rfl) (by simp)
  | [x] =>
    simp only [ofMatches, found.injEq, List.mem_singleton]
    constructor
    · rintro rfl d
      rfl
    · exact fun h => (h x).1 rfl
  | x :: y :: rest =>
    refine ⟨by simp [ofMatches], fun h => ?_⟩
    have hx := (h x).1 (by simp)
    have hy := (h y).1 (by simp)
    simp_all

theorem ofMatches_eq_ambiguous_iff {c c' : List Nat} (hc : c.Nodup) :
    ofMatches c = .ambiguous c' ↔ c' = c ∧ ∃ d ∈ c, ∃ e ∈ c, d ≠ e := by
  match c with
  | [] => simp [ofMatches]
  | [x] => simp [ofMatches]
  | x :: y :: rest =>
    have hxy : x ≠ y := by
      intro heq
      subst heq
      simp at hc
    simp only [ofMatches, ambiguous.injEq]
    refine ⟨fun h => ⟨h.symm, x, by simp, y, by simp, hxy⟩, fun h => h.1.symm⟩

end Resolution

namespace Schema

theorem firstMatch_cons (isMatch : Nat → Bool) (tier : List Nat) (rest : List (List Nat)) :
    firstMatch isMatch (tier :: rest) =
      if tier.filter isMatch = [] then firstMatch isMatch rest
      else .ofMatches (tier.filter isMatch) := by
  rw [firstMatch]
  match tier.filter isMatch with
  | [] => rfl
  | [_] => rfl
  | _ :: _ :: _ => rfl

/-- The first tier that holds a match decides. -/
theorem firstMatch_of_first {isMatch : Nat → Bool} {tiers : List (List Nat)} {m : Nat}
    {tier : List Nat} (h : tiers[m]? = some tier) (hmatch : tier.filter isMatch ≠ [])
    (hfirst : ∀ k < m, ∀ t, tiers[k]? = some t → t.filter isMatch = []) :
    firstMatch isMatch tiers = .ofMatches (tier.filter isMatch) := by
  induction tiers generalizing m with
  | nil => simp at h
  | cons t rest ih =>
    cases m with
    | zero =>
      cases h
      rw [firstMatch_cons, if_neg hmatch]
    | succ m =>
      rw [firstMatch_cons, if_pos (hfirst 0 (Nat.succ_pos m) t rfl)]
      exact ih h fun k hk => hfirst (k + 1) (Nat.succ_lt_succ hk)

/-- An answer is the verdict of one of the tiers. -/
theorem exists_tier_of_firstMatch {isMatch : Nat → Bool} {tiers : List (List Nat)}
    (h : firstMatch isMatch tiers ≠ .missing) :
    ∃ tier ∈ tiers, firstMatch isMatch tiers = .ofMatches (tier.filter isMatch) := by
  induction tiers with
  | nil => exact absurd rfl h
  | cons tier rest ih =>
    rw [firstMatch_cons] at h ⊢
    split at h
    · next hnone =>
      obtain ⟨tier', htier', heq⟩ := ih h
      rw [if_pos hnone]
      exact ⟨tier', List.mem_cons_of_mem tier htier', heq⟩
    · next hmatch =>
      rw [if_neg hmatch]
      exact ⟨tier, List.mem_cons_self, rfl⟩

theorem mem_of_firstMatch_found {isMatch : Nat → Bool} {tiers : List (List Nat)} {t : Nat}
    (h : firstMatch isMatch tiers = .found t) : ∃ tier ∈ tiers, t ∈ tier.filter isMatch := by
  have hanswer : firstMatch isMatch tiers ≠ .missing := by rw [h]; nofun
  obtain ⟨tier, htier, heq⟩ := exists_tier_of_firstMatch hanswer
  refine ⟨tier, htier, ?_⟩
  rw [Resolution.eq_of_ofMatches_found (heq.symm.trans h)]
  exact List.mem_singleton_self t

theorem exists_of_firstMatch_ambiguous {isMatch : Nat → Bool} {tiers : List (List Nat)}
    {candidates : List Nat} (h : firstMatch isMatch tiers = .ambiguous candidates) :
    ∃ tier ∈ tiers, candidates = tier.filter isMatch := by
  have hanswer : firstMatch isMatch tiers ≠ .missing := by rw [h]; nofun
  obtain ⟨tier, htier, heq⟩ := exists_tier_of_firstMatch hanswer
  exact ⟨tier, htier, (Resolution.eq_of_ofMatches_ambiguous (heq.symm.trans h)).symm⟩

theorem firstMatch_eq_missing_iff {isMatch : Nat → Bool} {tiers : List (List Nat)} :
    firstMatch isMatch tiers = .missing ↔ ∀ tier ∈ tiers, tier.filter isMatch = [] := by
  induction tiers with
  | nil => simp [firstMatch]
  | cons t rest ih =>
    rw [firstMatch_cons, List.forall_mem_cons]
    split
    · next h => simp [ih, h]
    · next h => simp [h, Resolution.ofMatches_ne_missing h]

/-! ### Answers -/

theorem mem_matches_iff {s : Schema} (hs : s.IsForest) {id m d : Nat} {name : String}
    {tier : List Nat} (hid : id < s.declarations.length) (h : (s.tiers id)[m]? = some tier) :
    d ∈ tier.filter (s.nameOf · == name) ↔ s.NamedAt id name m d := by
  rw [List.mem_filter, hs.mem_tiers_iff hid h, beq_iff_eq, NamedAt]

theorem resolve_eq_missing_iff {s : Schema} (hs : s.IsForest) {id : Nat} {name : String}
    (hid : id < s.declarations.length) :
    s.resolve id name = .missing ↔ ∀ m d, ¬s.NamedAt id name m d := by
  rw [resolve, firstMatch_eq_missing_iff]
  constructor
  · intro h m d hd
    obtain ⟨tier, htier⟩ := hs.exists_tier hd.1
    have hmem := (mem_matches_iff hs hid htier).2 hd
    rw [h tier (List.mem_of_getElem? htier)] at hmem
    cases hmem
  · intro h tier htier
    obtain ⟨m, hm⟩ := List.getElem?_of_mem htier
    refine List.eq_nil_iff_forall_not_mem.2 fun d hd => h m d ?_
    exact (mem_matches_iff hs hid hm).1 hd

theorem HasLevel.lt {s : Schema} {id m d : Nat} (h : s.HasLevel id m d) :
    d < s.declarations.length := by
  have hchild {parent : Nat} (h : s.IsParent parent d) : d < s.declarations.length := by
    obtain ⟨e, he, -⟩ := parentOf_eq_some_iff.1 h
    exact lt_of_get? he
  cases h with
  | below h =>
    cases h with
    | single h => exact hchild h
    | tail _ h => exact hchild h
  | beside h _ => exact h

/-- What is found is there, under the name that was looked up. -/
theorem exists_of_resolve_found {s : Schema} (hs : s.IsForest) {id t : Nat} {name : String}
    (hid : id < s.declarations.length) (h : s.resolve id name = .found t) :
    ∃ d, s.get? t = some d ∧ d.name = name := by
  obtain ⟨tier, htier, ht⟩ := mem_of_firstMatch_found h
  obtain ⟨m, hm⟩ := List.getElem?_of_mem htier
  obtain ⟨hlevel, hname⟩ := (mem_matches_iff hs hid hm).1 ht
  obtain ⟨d, hd⟩ := exists_get? hlevel.lt
  rw [nameOf, viewAt_of_get? hd] at hname
  exact ⟨d, hd, hname⟩

/-- At the first level that holds a name, its matches decide. -/
theorem resolve_of_firstLevel {s : Schema} (hs : s.IsForest) {id m : Nat} {name : String}
    (hid : id < s.declarations.length) (h : s.FirstLevel id name m) :
    ∃ c, s.resolve id name = .ofMatches c ∧ c.Nodup ∧ ∀ d, d ∈ c ↔ s.NamedAt id name m d := by
  obtain ⟨⟨d, hd⟩, hfirst⟩ := h
  obtain ⟨tier, htier⟩ := hs.exists_tier hd.1
  have hmem (x : Nat) : x ∈ tier.filter (s.nameOf · == name) ↔ s.NamedAt id name m x :=
    mem_matches_iff hs hid htier
  refine ⟨tier.filter (s.nameOf · == name), ?_,
    (hs.nodup_tiers (List.mem_of_getElem? htier)).filter _, hmem⟩
  apply firstMatch_of_first htier
  · exact List.ne_nil_of_mem ((hmem d).2 hd)
  · intro k hk t ht
    refine List.eq_nil_iff_forall_not_mem.2 fun x hx => hfirst k hk x ?_
    exact (mem_matches_iff hs hid ht).1 hx

/-- **A name means what is at the first level that holds it.** No declaration has two levels; a
name that is at no level is missing; and otherwise the one declaration of that name at the
first level is found, or all of them are candidates. -/
theorem resolve_by_levels {lines : List Line} {s : Schema} (h : Schema.ofLines lines = .ok s)
    {id : Nat} (hid : id < s.declarations.length) (name : String) :
    (∀ d m m', s.HasLevel id m d → s.HasLevel id m' d → m = m') ∧
    (s.resolve id name = .missing ↔ ∀ m d, ¬s.NamedAt id name m d) ∧
    ∀ m, s.FirstLevel id name m →
      (∀ t, s.resolve id name = .found t ↔ ∀ d, s.NamedAt id name m d ↔ d = t) ∧
      ((∃ c, s.resolve id name = .ambiguous c) ↔
        ∃ d e, s.NamedAt id name m d ∧ s.NamedAt id name m e ∧ d ≠ e) ∧
      ∀ c, s.resolve id name = .ambiguous c →
        c.Nodup ∧ ∀ d, d ∈ c ↔ s.NamedAt id name m d := by
  obtain ⟨document, -, rfl⟩ := ofLines_eq_ok_iff_document.1 h
  have hs := document.isForest
  refine ⟨fun d m m' => hs.level_unique, resolve_eq_missing_iff hs hid, fun m hm => ?_⟩
  obtain ⟨c, hresolve, hnodup, hmem⟩ := resolve_of_firstLevel hs hid hm
  refine ⟨fun t => ?_, ?_, fun c' hc' => ?_⟩
  · rw [hresolve, Resolution.ofMatches_eq_found_iff hnodup]
    simp only [hmem]
  · simp only [hresolve, Resolution.ofMatches_eq_ambiguous_iff hnodup, hmem]
    constructor
    · intro hx
      obtain ⟨-, -, d, hd, e, he, hne⟩ := hx
      exact ⟨d, e, hd, he, hne⟩
    · intro hx
      obtain ⟨d, e, hd, he, hne⟩ := hx
      exact ⟨c, rfl, d, hd, e, he, hne⟩
  · rw [hresolve, Resolution.ofMatches_eq_ambiguous_iff hnodup] at hc'
    obtain ⟨rfl, -⟩ := hc'
    exact ⟨hnodup, hmem⟩

end Schema

/-- A message with two messages in it, each of which has an enum of the same name. -/
def Document.twinSample : Document where
  package := none
  roots :=
    .message "A" []
      (.message "B" [] (.enumeration "X" [] .nil) (.message "C" [] (.enumeration "X" [] .nil) .nil))
      .nil

/-- The lines of that document. -/
def twinLines : List Line := [
  ⟨"message A \x7b", 1⟩, ⟨"message B \x7b", 2⟩, ⟨"enum X \x7b", 3⟩, ⟨"\x7d", 4⟩, ⟨"\x7d", 5⟩,
  ⟨"message C \x7b", 6⟩, ⟨"enum X \x7b", 7⟩, ⟨"\x7d", 8⟩, ⟨"\x7d", 9⟩, ⟨"\x7d", 10⟩]

theorem Schema.resolve_by_levels_twins :
    ∃ c, Document.twinSample.toSchema.resolve 0 "X" = .ambiguous c ∧ c.Nodup ∧ 2 ∈ c ∧ 4 ∈ c := by
  have hlines : Schema.ofLines twinLines = .ok Document.twinSample.toSchema := by rfl
  have hfirst : Document.twinSample.toSchema.NamedAt 0 "X" 0 2 :=
    ⟨.below (.tail (.single rfl : Relation.TransGen _ 0 1) rfl), rfl⟩
  have hsecond : Document.twinSample.toSchema.NamedAt 0 "X" 0 4 :=
    ⟨.below (.tail (.single rfl : Relation.TransGen _ 0 3) rfl), rfl⟩
  obtain ⟨-, -, hlevels⟩ := Schema.resolve_by_levels hlines (by decide : 0 < 5) "X"
  obtain ⟨-, hambiguous, hall⟩ := hlevels 0 ⟨⟨2, hfirst⟩, by simp⟩
  obtain ⟨c, hc⟩ := hambiguous.2 ⟨2, 4, hfirst, hsecond, by decide⟩
  obtain ⟨hnodup, hmem⟩ := hall c hc
  exact ⟨c, hc, hnodup, (hmem 2).2 hfirst, (hmem 4).2 hsecond⟩

end SwiftWrap
