import SwiftWrap.Proofs.Mark

/-! Generated code as blocks.

A line and the deeper lines below it are a block (`Code.blocks`). The blocks that begin with a
heading are the wrappers, one inside another (`Code.wrappers`).

A script that is put together from lines, and from lines with a deeper part below them
(`Script.Nested`), writes the same blocks at every depth (`Nested.blocks_entries`). So the
blocks of a script are found part by part, and no proof about generated code has to count
tabs. -/
namespace SwiftWrap

/-- A line of code with the blocks below it. -/
structure Block where
  head : String
  inner : List Block

/-- A line of code with nothing below it. -/
def Block.leaf (head : String) : Block := ⟨head, []⟩

/-- A wrapper: its kind and its name, and what its heading stands above. -/
structure Wrapper where
  kind : Kind
  name : String
  body : List Block

namespace Code

/-- Lines as blocks: what is deeper than a line, directly below it, is inside its block. -/
def blocks : List CodeLine → List Block
  | [] => []
  | line :: rest =>
    ⟨line.text, blocks (rest.takeWhile (line.depth < ·.depth))⟩ ::
      blocks (rest.dropWhile (line.depth < ·.depth))
termination_by lines => lines.length
decreasing_by
  · exact Nat.lt_succ_of_le (List.takeWhile_sublist _).length_le
  · exact Nat.lt_succ_of_le (List.dropWhile_sublist _).length_le

/-- The wrapper that a block is, if it begins with a heading. -/
def wrapper? (head : String) (inner : List Block) : Option Wrapper :=
  (heading? head).map fun (kind, name) => ⟨kind, name, inner⟩

end Code

/-- The wrappers in a block, an outer one before those inside it. -/
def Block.wrappers : Block → List Wrapper
  | ⟨head, inner⟩ => (Code.wrapper? head inner).toList ++ inner.flatMap wrappers

/-- The wrappers of a text, in the order of their headings. -/
def Code.wrappers (code : String) : List Wrapper := (blocks (lines code)).flatMap Block.wrappers

/-! ### Blocks one after another -/

namespace Code

/-- Lines that begin no deeper than any line before them begin a new block. -/
theorem blocks_append {first second : List CodeLine}
    (h : ∀ l ∈ second.head?, ∀ x ∈ first, l.depth ≤ x.depth) :
    blocks (first ++ second) = blocks first ++ blocks second := by
  fun_induction blocks first with
  | case1 => rfl
  | case2 line rest _ ih =>
    have hstop : ∀ l ∈ second.head?, decide (line.depth < l.depth) = false := fun l hl =>
      decide_eq_false (Nat.not_lt.2 (h l hl line List.mem_cons_self))
    obtain ⟨htake, hdrop⟩ := Text.span_append rest hstop
    have hrest : ∀ l ∈ second.head?, ∀ x ∈ rest.dropWhile (line.depth < ·.depth),
        l.depth ≤ x.depth := fun l hl x hx =>
      h l hl x (List.mem_cons_of_mem line ((List.dropWhile_sublist _).mem hx))
    rw [List.cons_append, blocks, htake, hdrop, ih hrest, List.cons_append]

/-- A line above deeper lines is the head of one block. -/
theorem blocks_cons_deeper {line : CodeLine} {below : List CodeLine}
    (h : ∀ l ∈ below, line.depth < l.depth) :
    blocks (line :: below) = [⟨line.text, blocks below⟩] := by
  have hall : ∀ l ∈ below, decide (line.depth < l.depth) = true := fun l hl =>
    decide_eq_true (h l hl)
  rw [blocks, List.takeWhile_eq_self_iff.2 hall, List.dropWhile_eq_nil_iff.2 hall, blocks]

/-- Lines of one depth have nothing below them. -/
theorem blocks_map (depth : Nat) (texts : List String) :
    blocks (texts.map (⟨depth, ·⟩)) = texts.map Block.leaf := by
  induction texts with
  | nil => rw [List.map_nil, blocks, List.map_nil]
  | cons text rest ih =>
    have hline : blocks [⟨depth, text⟩] = [Block.leaf text] := by
      rw [blocks_cons_deeper (by simp), blocks]
      rfl
    have happend : blocks ([⟨depth, text⟩] ++ rest.map (⟨depth, ·⟩)) =
        blocks [⟨depth, text⟩] ++ blocks (rest.map (⟨depth, ·⟩)) := by
      refine blocks_append fun l hl x hx => ?_
      obtain ⟨other, -, rfl⟩ := List.mem_map.1 (List.mem_of_mem_head? hl)
      rw [List.mem_singleton.1 hx]
    rw [List.map_cons, List.map_cons, ← ih, ← List.singleton_append, happend, hline]
    rfl

end Code

/-! ### The blocks of a script -/

namespace Script

/-- The blocks that a script writes. -/
def blocks (script : Script) : List Block := Code.blocks (entries 0 script)

/-- A script of lines, some of them with a deeper part directly below. -/
inductive Nested : Script → Prop where
  | nil : Nested []
  | line (text : String) : Nested [.line text]
  | lines (text : String) : Nested [.lines text]
  | blank : Nested [.blank]
  | strip : Nested [.strip]
  | append {first second : Script} (h : Nested first) (h' : Nested second) :
      Nested (first ++ second)
  | block (head : String) {body : Script} (h : Nested body) :
      Nested ([.line head] ++ (.indent :: body ++ [.dedent]))

namespace Nested
variable {script first second body : Script}

theorem level (h : Nested script) : Level script := by
  induction h with
  | nil => exact .nil
  | line text => exact .line text
  | lines text => exact .lines text
  | blank => exact .blank
  | strip => exact .strip
  | append _ _ ih ih' => exact ih.append ih'
  | block head _ ih => exact (Level.line head).cons ih.deeper

theorem entries_block (head : String) (body : Script) (depth : Nat) :
    entries depth ([.line head] ++ (.indent :: body ++ [.dedent])) =
      ⟨depth, head⟩ :: entries (depth + 1) body := by
  simp only [List.cons_append, List.nil_append, entries, Script.entries_append, Sheet.Step.texts,
    Sheet.Step.after, List.map_cons, List.map_nil, List.append_nil]

/-- The first line is at the depth at which the script starts. -/
theorem depth_head (h : Nested script) {depth : Nat} :
    ∀ l ∈ (entries depth script).head?, l.depth = depth := by
  induction h with
  | nil => simp [entries]
  | line => simp [entries, Sheet.Step.texts]
  | lines =>
    intro l hl
    simp only [entries, List.append_nil] at hl
    obtain ⟨text, -, rfl⟩ := List.mem_map.1 (List.mem_of_mem_head? hl)
    rfl
  | blank => simp [entries, Sheet.Step.texts]
  | strip => simp [entries, Sheet.Step.texts]
  | append h _ ih ih' =>
    intro l hl
    rw [h.level.entries_append, List.head?_append, Option.mem_def, Option.or_eq_some_iff] at hl
    rcases hl with hl | ⟨-, hl⟩
    · exact ih l hl
    · exact ih' l hl
  | block head _ _ =>
    rw [entries_block]
    simp

/-- Blocks of scripts one after another are the blocks of each. -/
theorem blocks_entries_append (h : Nested first) (h' : Nested second) (depth : Nat) :
    Code.blocks (entries depth (first ++ second)) =
      Code.blocks (entries depth first) ++ Code.blocks (entries depth second) := by
  rw [h.level.entries_append]
  refine Code.blocks_append fun l hl x hx => ?_
  rw [h'.depth_head l hl]
  exact h.level.le_depth x hx

/-- An indented script is what stands in the block of the line before it. -/
theorem blocks_entries_block (h : Nested body) (head : String) (depth : Nat) :
    Code.blocks (entries depth ([.line head] ++ (.indent :: body ++ [.dedent]))) =
      [⟨head, Code.blocks (entries (depth + 1) body)⟩] := by
  rw [entries_block]
  exact Code.blocks_cons_deeper fun l hl => h.level.le_depth l hl

/-- **A script writes the same blocks at every depth.** -/
theorem blocks_entries (h : Nested script) (depth : Nat) :
    Code.blocks (entries depth script) = script.blocks := by
  suffices hany : ∀ depth depth', Code.blocks (entries depth script) =
      Code.blocks (entries depth' script) from hany depth 0
  induction h with
  | nil => exact fun _ _ => rfl
  | line text =>
    intro depth depth'
    exact (Code.blocks_map depth [text]).trans (Code.blocks_map depth' [text]).symm
  | lines text =>
    intro depth depth'
    simp only [entries, List.append_nil, Code.blocks_map]
  | blank => exact fun _ _ => rfl
  | strip => exact fun _ _ => rfl
  | append h h' ih ih' =>
    intro depth depth'
    rw [blocks_entries_append h h', blocks_entries_append h h', ih depth depth', ih' depth depth']
  | block head h ih =>
    intro depth depth'
    rw [blocks_entries_block h, blocks_entries_block h, ih (depth + 1) (depth' + 1)]

/-- So blocks can be read without depths. -/
theorem blocks_append (h : Nested first) (h' : Nested second) :
    (first ++ second).blocks = first.blocks ++ second.blocks :=
  blocks_entries_append h h' 0

theorem blocks_block (h : Nested body) (head : String) :
    Script.blocks ([.line head] ++ (.indent :: body ++ [.dedent])) = [⟨head, body.blocks⟩] := by
  rw [Script.blocks, blocks_entries_block h, h.blocks_entries]

end Nested

@[simp] theorem blocks_nil : blocks [] = [] := by
  rw [blocks, entries, Code.blocks]

@[simp] theorem blocks_blank : blocks [.blank] = [] := blocks_nil

@[simp] theorem blocks_strip : blocks [.strip] = [] := blocks_nil

@[simp] theorem blocks_line (text : String) : blocks [.line text] = [.leaf text] :=
  Code.blocks_map 0 [text]

@[simp] theorem blocks_lines (text : String) :
    blocks [.lines text] = (Sheet.Step.lines text).texts.map Block.leaf := by
  rw [blocks, entries, entries, List.append_nil, Code.blocks_map]

namespace Nested
variable {rest : Script} {step : Sheet.Step}

theorem cons (h : Nested [step]) (h' : Nested rest) : Nested (step :: rest) := h.append h'

theorem flatMap {items : List α} {f : α → Script} (h : ∀ a ∈ items, Nested (f a)) :
    Nested (items.flatMap f) ∧
      blocks (items.flatMap f) = items.flatMap fun a => (f a).blocks := by
  induction items with
  | nil => exact ⟨nil, blocks_nil⟩
  | cons a rest ih =>
    obtain ⟨ha, hrest⟩ := List.forall_mem_cons.1 h
    obtain ⟨hnested, hblocks⟩ := ih hrest
    rw [List.flatMap_cons, List.flatMap_cons, blocks_append ha hnested, hblocks]
    exact ⟨ha.append hnested, rfl⟩

theorem map_line (items : List α) (f : α → String) :
    Nested (items.map fun a => .line (f a)) ∧
      blocks (items.map fun a => .line (f a)) = items.map fun a => .leaf (f a) := by
  rw [List.map_eq_flatMap, List.map_eq_flatMap]
  obtain ⟨hnested, hblocks⟩ := flatMap fun a (_ : a ∈ items) => line (f a)
  refine ⟨hnested, hblocks.trans (List.flatMap_congr fun a _ => blocks_line (f a))⟩

end Nested

/-! ### Reading blocks one by one -/

/-- A script in whose blocks something is found, block by block. -/
structure Gathers (read : Block → List α) (script : Script) (found : List α) : Prop where
  nested : Nested script
  found : script.blocks.flatMap read = found

namespace Gathers
variable {read : Block → List α} {script first second body : Script} {found found' : List α}

theorem of_eq (h : Gathers read script found) (heq : found = found') :
    Gathers read script found' :=
  heq ▸ h

theorem nil : Gathers read [] [] := ⟨.nil, by rw [blocks_nil, List.flatMap_nil]⟩

theorem blank : Gathers read [.blank] [] := ⟨.blank, by rw [blocks_blank, List.flatMap_nil]⟩

theorem strip : Gathers read [.strip] [] := ⟨.strip, by rw [blocks_strip, List.flatMap_nil]⟩

theorem line {text : String} (h : read (.leaf text) = found) : Gathers read [.line text] found :=
  ⟨.line text, by rw [blocks_line, List.flatMap_singleton, h]⟩

/-- Scripts one after another yield what each yields. -/
theorem append (h : Gathers read first found) (h' : Gathers read second found') :
    Gathers read (first ++ second) (found ++ found') where
  nested := h.nested.append h'.nested
  found := by rw [h.nested.blocks_append h'.nested, List.flatMap_append, h.found, h'.found]

theorem cons {step : Sheet.Step} (h : Gathers read [step] found)
    (h' : Gathers read second found') : Gathers read (step :: second) (found ++ found') :=
  h.append h'

/-- A script for each of some items yields what each item does. -/
theorem flatMap {items : List β} {f : β → Script} {yields : β → List α}
    (h : ∀ b ∈ items, Gathers read (f b) (yields b)) :
    Gathers read (items.flatMap f) (items.flatMap yields) := by
  induction items with
  | nil => exact nil
  | cons b rest ih =>
    obtain ⟨hb, hrest⟩ := List.forall_mem_cons.1 h
    exact hb.append (ih hrest)

theorem map_line {items : List β} {f : β → String} {yields : β → List α}
    (h : ∀ b ∈ items, read (.leaf (f b)) = yields b) :
    Gathers read (items.map fun b => .line (f b)) (items.flatMap yields) := by
  rw [List.map_eq_flatMap]
  exact flatMap fun b hb => line (h b hb)

theorem map_silent {items : List β} {f : β → String} (h : ∀ b ∈ items, read (.leaf (f b)) = []) :
    Gathers read (items.map fun b => .line (f b)) [] :=
  (map_line h).of_eq (List.flatMap_eq_nil_iff.2 fun _ _ => rfl)

/-- A block yields what can be read from it as a whole. -/
theorem block (hbody : Nested body) {head : String} (h : read ⟨head, body.blocks⟩ = found) :
    Gathers read ([.line head] ++ (.indent :: body ++ [.dedent])) found where
  nested := .block head hbody
  found := by rw [hbody.blocks_block, List.flatMap_singleton, h]

/-- Where nothing is found in a brace, what is found in a block is all. -/
theorem braced (hclose : read (.leaf "\x7d") = []) (hbody : Nested body) {head : String}
    (h : read ⟨head ++ " \x7b", body.blocks⟩ = found) :
    Gathers read (Script.braced head body) found := by
  rw [Writes.braced_eq]
  exact ((block hbody h).append (line hclose)).of_eq (List.append_nil found)

/-- A block in which nothing is found, whatever stands behind the words that it begins with. -/
theorem braced_of_lead (hclose : read (.leaf "\x7d") = []) {lead : String}
    (h : ∀ rest inner, read ⟨lead ++ rest, inner⟩ = []) (rest : String) (hbody : Nested body) :
    Gathers read (Script.braced (lead ++ rest) body) [] := by
  refine braced hclose hbody ?_
  rw [String.append_assoc]
  exact h ..

end Gathers

/-! ### Wrappers -/

theorem wrappers_leaf (text : String) :
    (Block.leaf text).wrappers = (Code.wrapper? text []).toList := by
  rw [Block.leaf, Block.wrappers, List.flatMap_nil, List.append_nil]

/-- What has no heading is no wrapper. -/
theorem wrapper?_eq_none {text : String} (h : Code.heading? text = none) (inner : List Block) :
    Code.wrapper? text inner = none := by
  rw [Code.wrapper?, h]
  rfl

theorem flatMap_wrappers_leaf {texts : List String}
    (h : ∀ text ∈ texts, Code.heading? text = none) :
    (texts.map Block.leaf).flatMap Block.wrappers = [] := by
  refine List.flatMap_eq_nil_iff.2 fun b hb => ?_
  obtain ⟨text, htext, rfl⟩ := List.mem_map.1 hb
  rw [wrappers_leaf, wrapper?_eq_none (h text htext)]
  rfl

/-- A script without headings has no wrappers. -/
theorem Nested.wrappers_eq_nil {script : Script} (h : Nested script)
    (hnone : ∀ text ∈ script.texts, Code.heading? text = none) :
    script.blocks.flatMap Block.wrappers = [] := by
  induction h with
  | nil => rw [blocks_nil, List.flatMap_nil]
  | line text =>
    rw [blocks_line]
    exact @flatMap_wrappers_leaf [text] hnone
  | lines text =>
    rw [blocks_lines]
    exact flatMap_wrappers_leaf (by simpa [texts] using hnone)
  | blank => rw [blocks_blank, List.flatMap_nil]
  | strip => rw [blocks_strip, List.flatMap_nil]
  | append h h' ih ih' =>
    rw [texts, List.flatMap_append, List.forall_mem_append] at hnone
    rw [blocks_append h h', List.flatMap_append, ih hnone.1, ih' hnone.2]
    rfl
  | @block head body h ih =>
    have hbody : ∀ text ∈ body.texts, Code.heading? text = none := fun text htext =>
      hnone text (by simp [texts, Sheet.Step.texts] at htext ⊢; exact .inr htext)
    have hhead : Code.heading? head = none := hnone head (by simp [texts, Sheet.Step.texts])
    rw [blocks_block h, List.flatMap_singleton, Block.wrappers, wrapper?_eq_none hhead, ih hbody]
    rfl

end Script
end SwiftWrap
