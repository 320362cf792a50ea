import SwiftWrap.Proofs.Scope
import Mathlib.Data.List.Sort

/-! The numbers of a schema that is read.

The reader declares at the opening line of a block and adopts at the closing line, after
whatever was opened and closed in between. Between two lines the links disagree, and it is the
open blocks that they disagree about (`Reader.HasOpenLinks`): each names its parent, so the way
up from it meets the open blocks around it, but nothing lists it yet. All others are listed.
Every run keeps this (`Reader.hasOpenLinks_of_run`), since every line does to the schema what it
does to the blocks without numbers (`Reader.step_numbered`, `Reader.foldlM_numbered`).

Where no block is open, the two agree (`Schema.IsPreorder`): the lists of children are the
parents' view of the links, in order of the numbers, and what lies below a declaration has the
numbers right behind its own. `Schema.ofLines_isPreorder` says so of every schema that is read. -/
namespace SwiftWrap
open Grammar

/-! ### Open blocks -/

/-- The numbers of the open blocks, the innermost first. -/
def OpenBlocks.ids : OpenBlocks → List Nat
  | file => []
  | message block outer => (block :: outer).map (·.id)
  | enumeration block owner outer => block.id :: (owner :: outer).map (·.id)

/-- The links of a schema between two lines. -/
structure Reader.HasOpenLinks (r : Reader) : Prop where
  /-- An open block has a declaration, and around it are the open blocks outside it. -/
  enclosing : ∀ id outer, id :: outer <:+ r.blocks.ids →
    id < r.schema.declarations.length ∧ r.schema.enclosing id = outer
  /-- A declaration is listed unless its block is open. -/
  beside : ∀ id < r.schema.declarations.length, id ∈ r.schema.beside id ↔ id ∉ r.blocks.ids

namespace Draft
variable {roots : Forest} {s : Schema}

/-- An open message has its declaration and those inside it behind all others. -/
theorem opened_placed {block : DraftMessage} {outer : List DraftMessage}
    (h : declared roots (block :: outer) <+: s.declarations) :
    declared roots outer <+: s.declarations ∧
      s.get? (count roots outer) =
        some (block.declaration (Reader.innermost (opened roots outer)) (count roots outer)) ∧
      block.nested.PlacedIn s (some (count roots outer)) (count roots outer + 1) := by
  obtain ⟨houter, hblock⟩ := (Forest.append_prefix_drop_iff (n := 0)).1 h
  rw [length_declared, Nat.zero_add] at hblock
  exact ⟨houter, Forest.cons_prefix_drop_iff.1 hblock⟩

/-- What stands behind the open messages and names the innermost as its parent is inside
them all. -/
theorem enclosing_of_innermost {messages : List DraftMessage} {id : Nat} {d : Declaration}
    (h : declared roots messages <+: s.declarations) (hd : s.get? id = some d)
    (hparent : d.parent = Reader.innermost (opened roots messages))
    (hle : count roots messages ≤ id) :
    s.enclosing id = (opened roots messages).map (·.id) := by
  have hup : s.parentOf id = Reader.innermost (opened roots messages) :=
    (Schema.viewAt_of_get? hd ..).trans hparent
  induction messages generalizing id d with
  | nil => exact Schema.enclosing_of_none hup
  | cons block outer ih =>
    obtain ⟨houter, hblock, -⟩ := opened_placed h
    have hlt : count roots outer < id := by
      rw [count] at hle
      omega
    rw [Schema.enclosing_of_some hup hlt,
      ih houter hblock rfl (Nat.le_refl _) (Schema.viewAt_of_get? hblock ..)]
    rfl

/-- Nor does the innermost list it. -/
theorem not_mem_beside {messages : List DraftMessage} {id : Nat} {d : Declaration}
    (h : declared roots messages <+: s.declarations) (hroots : s.roots = roots.numbers 0)
    (hd : s.get? id = some d) (hparent : d.parent = Reader.innermost (opened roots messages))
    (hle : count roots messages ≤ id) : id ∉ s.beside id := by
  intro hid
  cases messages with
  | nil =>
    rw [Schema.beside_of_root hd hparent, hroots] at hid
    have hlt := Forest.lt_of_mem_numbers hid
    rw [count] at hle
    omega
  | cons block outer =>
    obtain ⟨-, hblock, -⟩ := opened_placed h
    rw [Schema.beside_of_parent hd hparent hblock] at hid
    have hlt := Forest.lt_of_mem_numbers hid
    rw [count] at hle
    omega

/-- The way up from an open message meets the open messages outside it. -/
theorem enclosing_of_opened {messages : List DraftMessage}
    (h : declared roots messages <+: s.declarations) {id : Nat} {outer : List Nat}
    (hid : id :: outer <:+ (opened roots messages).map (·.id)) :
    id < s.declarations.length ∧ s.enclosing id = outer := by
  induction messages with
  | nil => simp [opened] at hid
  | cons block others ih =>
    obtain ⟨houter, hblock, -⟩ := opened_placed h
    rcases List.suffix_cons_iff.1 hid with heq | hid
    · cases heq
      exact ⟨Schema.lt_of_get? hblock, enclosing_of_innermost houter hblock rfl (Nat.le_refl _)⟩
    · exact ih houter hid

/-- Open messages stand in front of what comes next. -/
theorem lt_of_mem_opened {messages : List DraftMessage} {id : Nat}
    (h : id ∈ (opened roots messages).map (·.id)) : id < count roots messages := by
  induction messages with
  | nil => cases h
  | cons block outer ih =>
    rw [count]
    rcases List.mem_cons.1 h with rfl | h
    · show count roots outer < _
      omega
    · have := ih h
      omega

/-- Finished blocks are listed, open messages are not. -/
theorem mem_beside_iff {messages : List DraftMessage}
    (h : declared roots messages <+: s.declarations) (hroots : s.roots = roots.numbers 0) {id : Nat}
    (hlt : id < count roots messages) :
    id ∈ s.beside id ↔ id ∉ (opened roots messages).map (·.id) := by
  induction messages with
  | nil =>
    have hplaced : roots.PlacedIn s none 0 := h
    have hlisted : ∀ c ∈ roots.numbers 0, c ∈ s.beside c := by
      intro c hc
      obtain ⟨d, hd, hparent⟩ := Forest.parent_of_mem_numbers hplaced hc
      rw [Schema.beside_of_root hd hparent, hroots]
      exact hc
    simp [opened, Forest.mem_beside hplaced hlisted (Nat.zero_le id) (by rw [count] at hlt; omega)]
  | cons block outer ih =>
    obtain ⟨houter, hblock, hnested⟩ := opened_placed h
    rw [opened, List.map_cons, List.mem_cons, not_or]
    rw [count] at hlt
    rcases Nat.lt_trichotomy id (count roots outer) with hside | rfl | hside
    · simp [ih houter hside, Nat.ne_of_lt hside]
    · simp [not_mem_beside houter hroots hblock rfl (Nat.le_refl _)]
    · have hlisted := Forest.mem_beside_of_children hnested hblock rfl
      have hmem := Forest.mem_beside hnested hlisted hside (by omega)
      have houtside : id ∉ (opened roots outer).map (·.id) := fun hid => by
        have := lt_of_mem_opened hid
        omega
      simp [hmem, houtside, Nat.ne_of_gt hside]

/-- Between two lines, parents and lists disagree about the open blocks and no others. -/
theorem hasOpenLinks (d : Draft) : d.numbered.HasOpenLinks := by
  obtain ⟨package, roots, blocks⟩ := d
  have hmessages : ∀ messages, Reader.HasOpenLinks
      ⟨schema package roots messages, .messages (opened roots messages)⟩ := by
    intro messages
    have hids : (OpenBlocks.messages (opened roots messages)).ids =
        (opened roots messages).map (·.id) := by
      cases messages <;> rfl
    constructor
    · intro id outer hid
      rw [hids] at hid
      exact enclosing_of_opened (List.prefix_refl _) hid
    · intro id hlt
      rw [hids]
      exact mem_beside_iff (List.prefix_refl _) rfl (by rwa [← length_declared])
  cases blocks with
  | file => exact hmessages []
  | message block outer => exact hmessages (block :: outer)
  | enumeration block owner outer =>
    -- The open enum is declared last, behind the open messages.
    let s := (schema package roots (owner :: outer)).declare (some (count roots outer)) block.name
      .enumeration
    have hprefix : declared roots (owner :: outer) <+: s.declarations := List.prefix_append ..
    have hlength : s.declarations.length = count roots (owner :: outer) + 1 := by
      simp [s, Schema.declare, schema]
    have henum : s.get? (count roots (owner :: outer)) =
        some ⟨block.name, some (count roots outer), .empty .enumeration, .none⟩ := by
      rw [← length_declared]
      exact List.getElem?_concat_length
    constructor
    · intro id around hid
      rcases List.suffix_cons_iff.1 hid with heq | hid
      · cases heq
        exact ⟨Schema.lt_of_get? henum,
          enclosing_of_innermost hprefix henum rfl (Nat.le_refl _)⟩
      · exact enclosing_of_opened hprefix hid
    · intro id hlt
      show id ∈ s.beside id ↔
        id ∉ count roots (owner :: outer) :: (opened roots (owner :: outer)).map (·.id)
      rw [List.mem_cons, not_or]
      by_cases hid : id = count roots (owner :: outer)
      · subst hid
        simp [not_mem_beside hprefix rfl henum rfl (Nat.le_refl _)]
      · have hbefore : id < count roots (owner :: outer) := by
          have : id < s.declarations.length := hlt
          omega
        simp [mem_beside_iff hprefix rfl hbefore, hid]

end Draft

/-- **However far lines have been read, the links disagree about the open blocks alone.** -/
theorem Reader.hasOpenLinks_of_run {lines : List Line} {r : Reader}
    (h : lines.foldlM Reader.step Reader.start = .ok r) : r.HasOpenLinks := by
  have hrun := foldlM_numbered Draft.start lines
  have hstart : Draft.start.numbered = Reader.start := rfl
  rw [hstart, h] at hrun
  obtain ⟨d, -, rfl⟩ := map_eq_ok_iff.1 hrun.symm
  exact d.hasOpenLinks

/-- A schema numbered along the way through it. -/
structure Schema.IsPreorder (s : Schema) : Prop where
  /-- The way through the schema meets the numbers in order. -/
  listed : s.listed = List.range s.declarations.length
  /-- At file scope stands what has no parent, in order. -/
  roots : s.roots = (List.range s.declarations.length).filter fun id => s.parentOf id = none
  rootKind : ∀ id ∈ s.roots, ∃ d, s.get? id = some d ∧ d.kind = .message
  /-- A declaration lists those that name it as their parent, in order. -/
  children : ∀ id d, s.get? id = some d →
    d.children = (List.range s.declarations.length).filter fun c => s.parentOf c = some id
  /-- A parent is a message with a smaller number. -/
  parent : ∀ id parent, s.parentOf id = some parent →
    parent < id ∧ ∃ d, s.get? parent = some d ∧ d.kind = .message
  /-- What lies below a declaration has the numbers right behind its own. -/
  below : ∀ id, ∃ count, s.below id = List.range' (id + 1) count
  /-- The way down and the way up meet the same declarations. -/
  enclosing : ∀ id around, id ∈ s.below around ↔ around ∈ s.enclosing id

namespace Schema.IsForest
variable {s : Schema}

/-! ### Lists in order -/

/-- A list that leaves numbers out keeps those that have some property. -/
theorem eq_filter_of_sublist {ids : List Nat} {n : Nat} {P : Nat → Bool}
    (hsub : ids.Sublist (List.range n)) (hmem : ∀ id, id ∈ ids ↔ id < n ∧ P id = true) :
    ids = (List.range n).filter P := by
  have hids : ids.Pairwise (· < ·) := List.pairwise_lt_range.sublist hsub
  have hfilter : ((List.range n).filter P).Pairwise (· < ·) := List.pairwise_lt_range.filter P
  refine hids.eq_of_mem_iff hfilter fun id => ?_
  rw [hmem, List.mem_filter, List.mem_range]

theorem parentOf_eq_none_iff {id : Nat} (h : id < s.declarations.length) :
    s.parentOf id = none ↔ ∃ d, s.get? id = some d ∧ d.parent = none := by
  obtain ⟨d, hd⟩ := exists_get? h
  rw [parentOf, viewAt_of_get? hd]
  simp [hd]

theorem roots_eq_filter (hs : s.IsForest) :
    s.roots = (List.range s.declarations.length).filter fun id => s.parentOf id = none := by
  refine eq_filter_of_sublist hs.roots_sublist fun id => ?_
  rw [decide_eq_true_eq, hs.mem_roots_iff]
  constructor
  · intro h
    obtain ⟨d, hd, hnone⟩ := h
    exact ⟨lt_of_get? hd, (parentOf_eq_none_iff (lt_of_get? hd)).2 ⟨d, hd, hnone⟩⟩
  · intro h
    exact (parentOf_eq_none_iff h.1).1 h.2

theorem children_eq_filter (hs : s.IsForest) {id : Nat} {d : Declaration}
    (hd : s.get? id = some d) : d.children =
      (List.range s.declarations.length).filter fun c => s.parentOf c = some id := by
  refine eq_filter_of_sublist (hs.children_sublist hd) fun c => ?_
  rw [decide_eq_true_eq, hs.mem_children_iff hd]
  constructor
  · intro h
    obtain ⟨e, he, -⟩ := parentOf_eq_some_iff.1 h
    exact ⟨lt_of_get? he, h⟩
  · exact fun h => h.2

/-! ### Ways down and up -/

theorem parent_message (hs : s.IsForest) {id parent : Nat} (h : s.IsParent parent id) :
    parent < id ∧ ∃ d, s.get? parent = some d ∧ d.kind = .message := by
  obtain ⟨hlt, d, hd⟩ := hs.isParent_lt h
  refine ⟨hlt, d, hd, ?_⟩
  have hchild := (hs.mem_children_iff hd).2 h
  obtain ⟨name, parent, body, names⟩ := d
  cases body with
  | message children fields => rfl
  | enumeration items => cases hchild

/-- A part of the numbers in order is a row of numbers. -/
theorem exists_range'_of_infix {ids : List Nat} {n : Nat} (h : ids <:+: List.range n) :
    ∃ first count, ids = List.range' first count := by
  obtain ⟨before, after, heq⟩ := h
  rw [List.range_eq_range', eq_comm, List.range'_eq_append_iff] at heq
  obtain ⟨k, -, hfront, -⟩ := heq
  rw [eq_comm, List.range'_eq_append_iff] at hfront
  obtain ⟨j, -, -, hids⟩ := hfront
  exact ⟨_, _, hids⟩

theorem exists_below_eq (hs : s.IsForest) (id : Nat) :
    ∃ count, s.below id = List.range' (id + 1) count := by
  cases hd : s.get? id with
  | none =>
    refine ⟨0, ?_⟩
    rw [below, subtree, collect_of_none hd]
    rfl
  | some d =>
    obtain ⟨first, count, hrow⟩ := exists_range'_of_infix (hs.subtree_infix id)
    have hsubtree := subtree_of_get? hd
    rw [hrow, List.range'_eq_cons_iff] at hsubtree
    obtain ⟨rfl, -, -⟩ := hsubtree
    refine ⟨count - 1, ?_⟩
    rw [below, hrow, List.tail_range']

/-- What encloses a declaration is what its parents lead up to. -/
theorem mem_enclosing_iff (hs : s.IsForest) {id around : Nat} :
    around ∈ s.enclosing id ↔ Relation.TransGen s.IsParent around id := by
  induction id using Nat.strongRecOn with
  | _ id ih =>
    rw [hs.ascending.enclosing_eq id, Relation.TransGen.tail'_iff]
    cases hparent : s.parentOf id with
    | none => simp [IsParent, hparent]
    | some parent =>
      have hup := ih parent (hs.isParent_lt hparent).1
      simp only [List.mem_cons, hup, IsParent, hparent, Option.some.injEq,
        exists_eq_right', Relation.reflTransGen_iff_eq_or_transGen, eq_comm]

end Schema.IsForest

/-! ### Schemas that are read -/

theorem kind_of_isFile {texts packages : List String} {roots : Forest} {s : Schema}
    {parent : Option Nat} {n : Nat} (h : IsFile texts packages roots)
    (hplaced : roots.PlacedIn s parent n) :
    ∀ id ∈ roots.numbers n, ∃ d, s.get? id = some d ∧ d.kind = .message := by
  induction h generalizing n with
  | nil => simp [Forest.numbers]
  | ignored _ _ ih => exact ih hplaced
  | package _ _ ih => exact ih hplaced
  | message _ _ _ _ ih =>
    obtain ⟨hd, -, hrest⟩ := Forest.placedIn_message_iff.1 hplaced
    exact List.forall_mem_cons.2 ⟨⟨_, hd, rfl⟩, ih hrest⟩

/-- **A schema that is read is numbered along the way through it.** -/
theorem Schema.ofLines_isPreorder {lines : List Line} {s : Schema}
    (h : Schema.ofLines lines = .ok s) : s.IsPreorder := by
  -- Declaring and adopting line by line has numbered a document (`Schema.ofLines_eq_toSchema`).
  obtain ⟨document, hdocument, rfl⟩ := ofLines_eq_ok_iff_document.1 h
  obtain ⟨packages, hfile, -⟩ := Document.ofLines_eq_ok_iff.1 hdocument
  have hs := document.isForest
  exact {
    listed := hs.preorder
    roots := hs.roots_eq_filter
    rootKind := kind_of_isFile hfile document.placedIn
    children := fun id d hd => hs.children_eq_filter hd
    parent := fun id parent hparent => hs.parent_message hparent
    below := hs.exists_below_eq
    enclosing := fun id around => by rw [hs.mem_below_iff, hs.mem_enclosing_iff] }

theorem Schema.ofLines_isPreorder_twins :
    Schema.ofLines twinLines = .ok Document.twinSample.toSchema ∧
      Document.twinSample.toSchema.IsPreorder := by
  have hlines : Schema.ofLines twinLines = .ok Document.twinSample.toSchema := by rfl
  exact ⟨hlines, Schema.ofLines_isPreorder hlines⟩

end SwiftWrap
