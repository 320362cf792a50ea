import SwiftWrap.Proofs.Grammar

/-! Which line an error blames.

What blocks are open after some lines can be told from the forms of the lines alone
(`openBlocks`), and a reader that has come so far has just these open
(`Draft.Runs.openBlocks`). So the lines read so far can always be completed: by as many
closing lines as there are open blocks, and by no other number of them.

An error therefore blames the first line that cannot be continued
(`Schema.ofLines_blames_first`): the lines before it can be completed, and with it none of
the ways to go on changes the error. If there is no such line, the source ends inside a
block, and the error names the innermost one. -/
namespace SwiftWrap
open Spelling Grammar

/-! ### Open blocks -/

/-- The block that a line opens. -/
def openedBlock? (text : String) : Option (Kind × String) :=
  match Statement.blockName? .message text.toList with
  | some name => some (.message, name)
  | none => (Statement.blockName? .enumeration text.toList).map fun name => (.enumeration, name)

/-- The blocks open after one more line, the innermost first. -/
def blocksAfter (blocks : List (Kind × String)) (text : String) : List (Kind × String) :=
  if text = "\x7d" then blocks.tail else (openedBlock? text).toList ++ blocks

/-- The blocks open after some lines, the innermost first. -/
def openBlocks (texts : List String) : List (Kind × String) := texts.foldl blocksAfter []

/-- The kinds and names of the blocks that a reader has open. -/
def DraftBlocks.stack : DraftBlocks → List (Kind × String)
  | .file => []
  | .message block outer => (block :: outer).map fun b => (.message, b.name)
  | .enumeration block owner outer =>
    (.enumeration, block.name) :: (owner :: outer).map fun b => (.message, b.name)

theorem openedBlock?_eq_some_iff {text name : String} {kind : Kind} :
    openedBlock? text = some (kind, name) ↔ IsBlock kind text name := by
  unfold openedBlock?
  rw [← blockName?_eq_some_iff]
  cases kind with
  | message =>
    cases Statement.blockName? .message text.toList with
    | none => simp
    | some other => simp
  | enumeration =>
    cases hmessage : Statement.blockName? .message text.toList with
    | none => simp
    | some other =>
      -- The two forms differ in their first character.
      obtain ⟨rest, hrest⟩ := (blockName?_eq_some_iff.1 hmessage).starts
      have henum : Statement.blockName? .enumeration text.toList = none := by
        rw [hrest]
        rfl
      simp [henum]

theorem openedBlock?_eq_none {text : String} (h : text.toList.getLast? ≠ some '\x7b') :
    openedBlock? text = none := by
  rw [openedBlock?, blockName?_eq_none h, blockName?_eq_none h]
  rfl

theorem blocksAfter_of_isBlock {blocks : List (Kind × String)} {kind : Kind} {text name : String}
    (h : IsBlock kind text name) : blocksAfter blocks text = (kind, name) :: blocks := by
  have hne : text ≠ "\x7d" := by
    intro heq
    have hends := h.ends
    rw [heq] at hends
    simp at hends
  rw [blocksAfter, if_neg hne, openedBlock?_eq_some_iff.2 h]
  rfl

/-- A line that neither closes a block nor ends in a brace opens none. -/
theorem blocksAfter_of_other {blocks : List (Kind × String)} {text : String}
    (hne : text ≠ "\x7d") (h : openedBlock? text = none) : blocksAfter blocks text = blocks := by
  rw [blocksAfter, if_neg hne, h]
  rfl

theorem blocksAfter_of_semicolon {blocks : List (Kind × String)} {text : String}
    (h : text.toList.getLast? = some ';') : blocksAfter blocks text = blocks := by
  refine blocksAfter_of_other (fun heq => ?_) (openedBlock?_eq_none (by simp [h]))
  rw [heq] at h
  simp at h

theorem blocksAfter_of_start {blocks : List (Kind × String)} {text : String} {c : Char}
    {rest : List Char} (h : text.toList = c :: rest) (hc : c ≠ 'm' ∧ c ≠ 'e' ∧ c ≠ '\x7d') :
    blocksAfter blocks text = blocks := by
  apply blocksAfter_of_other
  · intro heq
    rw [heq] at h
    exact hc.2.2 (List.cons.inj h).1.symm
  · cases hblock : openedBlock? text with
    | none => rfl
    | some block =>
      obtain ⟨kind, name⟩ := block
      obtain ⟨rest', hrest'⟩ := (openedBlock?_eq_some_iff.1 hblock).starts
      rw [h] at hrest'
      cases kind <;> simp_all

namespace Draft

/-- One line changes the open blocks as its form says. -/
theorem Steps.stack {r r' : Draft} {text : String} (h : r.Steps text r') :
    r'.blocks.stack = blocksAfter r.blocks.stack text := by
  cases h with
  | ignored h =>
    rcases h with ⟨rest, hrest⟩ | ⟨rest, hrest⟩
    · exact (blocksAfter_of_start hrest.symm (by decide)).symm
    · exact (blocksAfter_of_start hrest.symm (by decide)).symm
  | package h =>
    obtain ⟨rest, hrest⟩ := h.starts
    exact (blocksAfter_of_start hrest (by decide)).symm
  | openRoot h => exact (blocksAfter_of_isBlock h).symm
  | @closeMessage _ _ _ outer => cases outer <;> rfl
  | openEnum h => exact (blocksAfter_of_isBlock h).symm
  | openMessage h => exact (blocksAfter_of_isBlock h).symm
  | field h _ => exact (blocksAfter_of_semicolon h.ends).symm
  | closeEnum => rfl
  | item h _ => exact (blocksAfter_of_semicolon h.ends).symm

/-- A run through some lines and more is a run through the first of them. -/
theorem Runs.split {r r'' : Draft} {first second : List String}
    (h : r.Runs (first ++ second) r'') : ∃ r', r.Runs first r' ∧ r'.Runs second r'' := by
  induction first generalizing r with
  | nil => exact ⟨r, .nil, h⟩
  | cons text first ih =>
    cases h with
    | cons hstep hrest =>
      obtain ⟨r', hfirst, hsecond⟩ := ih hrest
      exact ⟨r', .cons hstep hfirst, hsecond⟩

theorem Runs.stack {r r' : Draft} {texts : List String} (h : r.Runs texts r') :
    r'.blocks.stack = texts.foldl blocksAfter r.blocks.stack := by
  induction h with
  | nil => rfl
  | cons hstep _ ih => rw [ih, hstep.stack, List.foldl_cons]

/-- After some lines a reader has open what their forms say. -/
theorem Runs.openBlocks {r : Draft} {texts : List String} (h : Draft.start.Runs texts r) :
    r.blocks.stack = openBlocks texts :=
  h.stack

theorem stack_eq_nil_iff {r : Draft} : r.blocks.stack = [] ↔ r.blocks = .file := by
  obtain ⟨package, roots, blocks⟩ := r
  cases blocks <;> simp [DraftBlocks.stack]

/-! ### Closing -/

/-- Lines that only close blocks. -/
def Closing (lines : List Line) : Prop := ∀ line ∈ lines, line.text = "\x7d"

theorem Closing.texts {lines : List Line} (h : Closing lines) :
    lines.map (·.text) = List.replicate lines.length "\x7d" :=
  List.eq_replicate_iff.2 ⟨List.length_map .., by simpa [Closing] using h⟩

/-- At file scope there is nothing to close. -/
theorem Steps.closes {r r' : Draft} (h : r.Steps "\x7d" r') : r.blocks.stack ≠ [] := by
  intro hfile
  have hstep : r.step ⟨"\x7d", 0⟩ = .ok r' := step_of_steps h
  obtain ⟨package, roots, blocks⟩ := r
  cases stack_eq_nil_iff.1 hfile
  have hread : FileStatement.read? "\x7d" = none := by decide +kernel
  rw [step, fileLine, hread] at hstep
  cases hstep

/-- Each closing line closes one block. -/
theorem Runs.length_stack {r r' : Draft} {n : Nat} (h : r.Runs (List.replicate n "\x7d") r') :
    r.blocks.stack.length = n + r'.blocks.stack.length := by
  induction n generalizing r with
  | zero =>
    cases h
    exact (Nat.zero_add _).symm
  | succ n ih =>
    cases h with
    | cons hstep hrest =>
      have htail := ih hrest
      have hpos := List.length_pos_iff.2 hstep.closes
      rw [hstep.stack, blocksAfter, if_pos rfl, List.length_tail] at htail
      omega

/-- In a block a closing line can always be read. -/
theorem exists_steps_close {r : Draft} (h : r.blocks ≠ .file) : ∃ r', r.Steps "\x7d" r' := by
  obtain ⟨package, roots, blocks⟩ := r
  cases blocks with
  | file => exact absurd rfl h
  | message block outer => exact ⟨_, .closeMessage⟩
  | enumeration block owner outer => exact ⟨_, .closeEnum⟩

/-- As many closing lines as there are open blocks lead back to file scope. -/
theorem exists_runs_close (r : Draft) :
    ∃ r', r.Runs (List.replicate r.blocks.stack.length "\x7d") r' ∧ r'.blocks = .file := by
  induction hn : r.blocks.stack.length generalizing r with
  | zero => exact ⟨r, .nil, stack_eq_nil_iff.1 (List.length_eq_zero_iff.1 hn)⟩
  | succ n ih =>
    have hopen : r.blocks ≠ .file := by
      intro hfile
      rw [stack_eq_nil_iff.2 hfile] at hn
      cases hn
    obtain ⟨next, hstep⟩ := exists_steps_close hopen
    obtain ⟨r', hrest, hend⟩ := ih next (by
      rw [hstep.stack, blocksAfter, if_pos rfl, List.length_tail, hn]
      rfl)
    exact ⟨r', .cons hstep hrest, hend⟩

end Draft

open Draft (Closing)

/-! ### Errors at a line -/

/-- The number of the line that a problem is about. -/
def Problem.line? : Problem → Option Nat
  | .invalidLine number _ => some number
  | .unfinishedBlock _ _ => none
  | .repeatedPackage number _ => some number
  | .repeatedFieldName number _ _ => some number
  | .repeatedFieldIndex number _ _ _ => some number
  | .repeatedItemName number _ _ => some number
  | .repeatedItemIndex number _ _ _ => some number
  | .unresolvedType _ _ _ => none
  | .ambiguousType _ _ _ _ => none

/-- A field is refused for what it repeats, never as a line. -/
theorem Field.addedTo_error {fields : List Field} {message : String} {number : Nat} {f : Field}
    {problem : Problem} (h : f.addedTo fields message number = .error problem) :
    problem.line? = some number ∧ ∀ n text, problem ≠ .invalidLine n text := by
  unfold addedTo at h
  split at h
  · cases h
    exact ⟨rfl, nofun⟩
  · split at h
    · cases h
      exact ⟨rfl, nofun⟩
    · cases h

theorem Item.addedTo_error {items : List Item} {enumeration : String} {number : Nat} {i : Item}
    {problem : Problem} (h : i.addedTo items enumeration number = .error problem) :
    problem.line? = some number ∧ ∀ n text, problem ≠ .invalidLine n text := by
  unfold addedTo at h
  split at h
  · cases h
    exact ⟨rfl, nofun⟩
  · split at h
    · cases h
      exact ⟨rfl, nofun⟩
    · cases h

theorem map_eq_error_iff {f : α → β} {x : Except ε α} {e : ε} :
    x.map f = .error e ↔ x = .error e := by
  cases x <;> simp [Except.map]

namespace Draft

/-- A line is refused as a whole, as it is, or for something that it repeats. -/
theorem step_error_cases {r : Draft} {line : Line} {problem : Problem}
    (h : r.step line = .error problem) :
    problem = .invalidLine line.number line.text ∨
      problem.line? = some line.number ∧ ∀ n text, problem ≠ .invalidLine n text := by
  obtain ⟨package, roots, blocks⟩ := r
  cases blocks with
  | file =>
    change fileLine _ line = _ at h
    unfold fileLine at h
    split at h
    · cases h
      exact .inl rfl
    · cases h
    · split at h
      · cases h
        exact .inr ⟨rfl, nofun⟩
      · cases h
    · cases h
  | message block outer =>
    change messageLine _ block outer line = _ at h
    unfold messageLine at h
    split at h
    · cases h
      exact .inl rfl
    · cases h
    · cases h
    · cases h
    · exact .inr (Field.addedTo_error (map_eq_error_iff.1 (map_eq_error_iff.1 h)))
  | enumeration block owner outer =>
    change enumLine _ block owner outer line = _ at h
    unfold enumLine at h
    split at h
    · cases h
      exact .inl rfl
    · cases h
    · exact .inr (Item.addedTo_error (map_eq_error_iff.1 (map_eq_error_iff.1 h)))

/-- An error at a line names that line. -/
theorem step_error {r : Draft} {line : Line} {problem : Problem}
    (h : r.step line = .error problem) : problem.line? = some line.number := by
  rcases step_error_cases h with rfl | ⟨hline, -⟩
  · rfl
  · exact hline

/-- A line that is refused as a whole is shown as it is. -/
theorem eq_of_step_invalidLine {r : Draft} {line : Line} {number : Nat} {text : String}
    (h : r.step line = .error (.invalidLine number text)) : line = ⟨text, number⟩ := by
  rcases step_error_cases h with hshown | ⟨-, hother⟩
  · cases hshown
    rfl
  · exact absurd rfl (hother number text)

/-- Reading stops at the first line that gives an error. -/
theorem exists_of_foldlM_error {r : Draft} {lines : List Line} {problem : Problem}
    (h : lines.foldlM step r = .error problem) : ∃ before line after r',
      lines = before ++ line :: after ∧ before.foldlM step r = .ok r' ∧
      r'.step line = .error problem := by
  induction lines generalizing r with
  | nil => cases h
  | cons line rest ih =>
    rw [List.foldlM_cons] at h
    cases hstep : r.step line with
    | error problem' =>
      rw [hstep] at h
      cases h
      exact ⟨[], line, rest, r, rfl, rfl, hstep⟩
    | ok next =>
      rw [hstep] at h
      obtain ⟨before, line', after, r', rfl, hbefore, herror⟩ := ih h
      refine ⟨line :: before, line', after, r', rfl, ?_, herror⟩
      rw [List.foldlM_cons, hstep]
      exact hbefore

end Draft

/-! ### Schemas -/

namespace Schema

/-- Lines are accepted if they are read to their end and no block is open there. -/
theorem exists_ofLines_iff {lines : List Line} : (∃ s, ofLines lines = .ok s) ↔
    ∃ r, Draft.start.Runs (lines.map (·.text)) r ∧ r.blocks = .file := by
  simp only [ofLines_eq_ok_iff_document, ← Draft.foldlM_step_eq_ok_iff, Document.ofLines]
  cases h : lines.foldlM Draft.step Draft.start with
  | error problem => simp [bind, Except.bind]
  | ok r =>
    change (∃ s d, r.finish = .ok d ∧ d.toSchema = s) ↔ _
    simp [Draft.finish_eq_ok_iff]

/-- Lines that are read to their end can go wrong only by an open block. -/
theorem ofLines_eq_error_iff {lines : List Line} {r : Draft} {problem : Problem}
    (h : Draft.start.Runs (lines.map (·.text)) r) :
    ofLines lines = .error problem ↔ ∃ kind name, problem = .unfinishedBlock kind name ∧
      (openBlocks (lines.map (·.text))).head? = some (kind, name) := by
  rw [← h.openBlocks, ofLines_eq_toSchema, Document.ofLines, Draft.foldlM_step_eq_ok_iff.2 h]
  change r.finish.map _ = _ ↔ _
  rw [map_eq_error_iff]
  obtain ⟨package, roots, blocks⟩ := r
  cases blocks <;> simp [Draft.finish, DraftBlocks.stack, eq_comm]

/-- What comes behind a line that gives an error changes nothing. -/
theorem ofLines_of_step_error {before : List Line} {line : Line} {r : Draft} {problem : Problem}
    (hbefore : Draft.start.Runs (before.map (·.text)) r) (h : r.step line = .error problem)
    (after : List Line) : ofLines (before ++ line :: after) = .error problem := by
  rw [ofLines_eq_toSchema, Document.ofLines, List.foldlM_append, Draft.foldlM_step_eq_ok_iff.2 hbefore]
  change (((line :: after).foldlM Draft.step r).bind Draft.finish).map _ = _
  rw [List.foldlM_cons, h]
  rfl

/-- Lines are read to their end, or up to one that gives an error. -/
theorem runs_or_step_error (lines : List Line) :
    (∃ r, Draft.start.Runs (lines.map (·.text)) r) ∨
    ∃ before line after r problem, lines = before ++ line :: after ∧
      Draft.start.Runs (before.map (·.text)) r ∧ r.step line = .error problem := by
  cases h : lines.foldlM Draft.step Draft.start with
  | ok r => exact .inl ⟨r, Draft.foldlM_step_eq_ok_iff.1 h⟩
  | error problem =>
    obtain ⟨before, line, after, r, rfl, hbefore, herror⟩ := Draft.exists_of_foldlM_error h
    exact .inr ⟨before, line, after, r, problem, rfl, Draft.foldlM_step_eq_ok_iff.1 hbefore,
      herror⟩

theorem runs_of_unfinished {lines : List Line} {kind : Kind} {name : String}
    (h : ofLines lines = .error (.unfinishedBlock kind name)) :
    ∃ r, Draft.start.Runs (lines.map (·.text)) r := by
  rcases runs_or_step_error lines with hruns | ⟨before, line, after, r, found, rfl, hruns, hstep⟩
  · exact hruns
  · rw [ofLines_of_step_error hruns hstep] at h
    cases h
    cases Draft.step_error hstep

/-- Lines that closing lines complete are read to their end, and there are as many closing lines
as open blocks. -/
theorem runs_of_completed {lines closing : List Line} {s : Schema} (hclosing : Closing closing)
    (h : ofLines (lines ++ closing) = .ok s) :
    (∃ r, Draft.start.Runs (lines.map (·.text)) r) ∧
      closing.length = (openBlocks (lines.map (·.text))).length := by
  obtain ⟨r', hall, hend⟩ := exists_ofLines_iff.1 ⟨s, h⟩
  rw [List.map_append, hclosing.texts] at hall
  obtain ⟨r, hruns, hclose⟩ := hall.split
  have hlength := hclose.length_stack
  rw [Draft.stack_eq_nil_iff.2 hend, hruns.openBlocks] at hlength
  exact ⟨⟨r, hruns⟩, hlength.symm⟩

/-- Lines that are read to their end can be completed. -/
theorem exists_completion {lines : List Line} {r : Draft}
    (h : Draft.start.Runs (lines.map (·.text)) r) :
    ∃ closing, Closing closing ∧ ∃ s, ofLines (lines ++ closing) = .ok s := by
  have hclosing : Closing (List.replicate r.blocks.stack.length ⟨"\x7d", 0⟩) := by
    intro line hline
    rw [List.eq_of_mem_replicate hline]
  refine ⟨_, hclosing, exists_ofLines_iff.2 ?_⟩
  obtain ⟨r', hclose, hend⟩ := r.exists_runs_close
  rw [List.map_append, hclosing.texts, List.length_replicate]
  exact ⟨r', h.append hclose, hend⟩

/-- The source ends inside a block exactly if closing lines complete it. -/
theorem unfinished_iff_completed (lines : List Line) :
    (∃ kind name, ofLines lines = .error (.unfinishedBlock kind name)) ↔
      ∃ closing, closing ≠ [] ∧ Closing closing ∧ ∃ s, ofLines (lines ++ closing) = .ok s := by
  constructor
  · intro hx
    obtain ⟨kind, name, h⟩ := hx
    obtain ⟨r, hruns⟩ := runs_of_unfinished h
    obtain ⟨closing, hclosing, s, hs⟩ := exists_completion hruns
    refine ⟨closing, fun hnil => ?_, hclosing, s, hs⟩
    rw [hnil, List.append_nil, h] at hs
    cases hs
  · intro hx
    obtain ⟨closing, hne, hclosing, s, hs⟩ := hx
    obtain ⟨⟨r, hruns⟩, hlength⟩ := runs_of_completed hclosing hs
    cases hopen : openBlocks (lines.map (·.text)) with
    | nil =>
      rw [hopen] at hlength
      exact absurd (List.length_eq_zero_iff.1 hlength) hne
    | cons block outer =>
      exact ⟨block.1, block.2, (ofLines_eq_error_iff hruns).2 ⟨_, _, rfl, by rw [hopen]; rfl⟩⟩

/-- Every other error is about a line. -/
theorem exists_blamed_line {lines : List Line} {problem : Problem}
    (h : ofLines lines = .error problem)
    (hother : ∀ kind name, problem ≠ .unfinishedBlock kind name) :
    ∃ before line after r, lines = before ++ line :: after ∧
      Draft.start.Runs (before.map (·.text)) r ∧ r.step line = .error problem := by
  rcases runs_or_step_error lines with ⟨r, hruns⟩ | ⟨before, line, after, r, found, rfl, hruns, hstep⟩
  · obtain ⟨kind, name, heq, -⟩ := (ofLines_eq_error_iff hruns).1 h
    exact absurd heq (hother kind name)
  · rw [ofLines_of_step_error hruns hstep] at h
    cases h
    exact ⟨before, line, after, r, rfl, hruns, hstep⟩

/-- **An error blames the first line that cannot be continued.** The source ends inside a block
exactly if closing lines complete it; there are then as many of them as there are blocks
open at its end, and the innermost of these is named. Every other error is about a line, is
the same whatever follows the line, and the lines before it can be completed. -/
theorem ofLines_blames_first (lines : List Line) :
    ((∃ kind name, ofLines lines = .error (.unfinishedBlock kind name)) ↔
      ∃ closing, closing ≠ [] ∧ Closing closing ∧ ∃ s, ofLines (lines ++ closing) = .ok s) ∧
    (∀ closing s, Closing closing → ofLines (lines ++ closing) = .ok s →
      closing.length = (openBlocks (lines.map (·.text))).length) ∧
    (∀ kind name, ofLines lines = .error (.unfinishedBlock kind name) →
      (openBlocks (lines.map (·.text))).head? = some (kind, name)) ∧
    ∀ problem, ofLines lines = .error problem →
      (∀ kind name, problem ≠ .unfinishedBlock kind name) →
      ∃ before line after, lines = before ++ line :: after ∧ problem.line? = some line.number ∧
        (∀ rest, ofLines (before ++ line :: rest) = .error problem) ∧
        ∃ closing, Closing closing ∧ ∃ s, ofLines (before ++ closing) = .ok s := by
  refine ⟨unfinished_iff_completed lines, fun closing s hclosing hs => ?_, fun kind name h => ?_,
    fun problem h hother => ?_⟩
  · exact (runs_of_completed hclosing hs).2
  · obtain ⟨r, hruns⟩ := runs_of_unfinished h
    obtain ⟨_, _, heq, hhead⟩ := (ofLines_eq_error_iff hruns).1 h
    cases heq
    exact hhead
  · obtain ⟨before, line, after, r, rfl, hruns, hstep⟩ := exists_blamed_line h hother
    exact ⟨before, line, after, rfl, Draft.step_error hstep, ofLines_of_step_error hruns hstep,
      exists_completion hruns⟩

end Schema
end SwiftWrap
