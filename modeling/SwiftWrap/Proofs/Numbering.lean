import SwiftWrap.Proofs.Blame
import SwiftWrap.Proofs.FixedForm
import Mathlib.Data.List.Forall2

/-! The numbers of lines of code.

A source is its rows, which line breaks separate. Comments are taken out of it in two passes and
what is left is numbered after the first of them, so the numbers are right only if that pass loses
no line break. It takes out characters other than line breaks alone, and a text that is left of
another in this way has as many rows, each of them left of the row in its place
(`forall₂_rows`).

`Source.numbers_exact` says what follows for each line of code, and for the errors that name
one. -/
namespace SwiftWrap
open Text

namespace Source

/-- The rows of a text: what stands between its line breaks. -/
def rows (cs : List Char) : List (List Char) := List.splitOn '\n' cs

/-- The line of code in a row, if it is not blank. -/
def codeLine? (row : List Char × Nat) : Option Line :=
  match trim row.1 with
  | [] => none
  | c :: rest => some ⟨.ofList (c :: rest), row.2⟩

/-- The lines of code in rows without comments, numbered from one. -/
def numbered (rows : List (List Char)) : List Line := (rows.zipIdx 1).filterMap codeLine?

/-- The rows of a text once its comments are gone. -/
def bareRows (cs : List Char) : List (List Char) := (rows (withoutBlocks cs)).map withoutTail

/-- A line of code as it stands in a source: trimmed and without comments, it consists of
characters of the row with its number, in their order. -/
structure Holds (text : String) (line : Line) : Prop where
  filled : line.text ≠ ""
  trimmed : trim line.text.toList = line.text.toList
  oneLine : '\n' ∉ line.text.toList
  uncommented : ¬['/', '/'] <:+: line.text.toList
  positive : 1 ≤ line.number
  row : ∃ cs, (rows text.toList)[line.number - 1]? = some cs ∧ line.text.toList.Sublist cs

/-! ### Numbered rows -/

theorem codeLine?_eq_some_iff {row : List Char × Nat} {line : Line} :
    codeLine? row = some line ↔
      trim row.1 ≠ [] ∧ line.text.toList = trim row.1 ∧ line.number = row.2 := by
  obtain ⟨text, number⟩ := line
  rw [codeLine?]
  cases h : trim row.1 with
  | nil => simp
  | cons c rest =>
    have htext : String.ofList (c :: rest) = text ↔ text.toList = c :: rest := by
      rw [← String.toList_inj, String.toList_ofList, eq_comm]
    simp only [Option.some.injEq, Line.mk.injEq, htext, ne_eq, reduceCtorEq, not_false_eq_true,
      true_and, eq_comm (a := number)]

theorem mem_numbered_iff {rows : List (List Char)} {line : Line} :
    line ∈ numbered rows ↔ ∃ cs, 1 ≤ line.number ∧ rows[line.number - 1]? = some cs ∧
      trim cs ≠ [] ∧ line.text.toList = trim cs := by
  rw [numbered, List.mem_filterMap]
  constructor
  · rintro ⟨⟨cs, number⟩, hrow, hline⟩
    obtain ⟨hne, htext, hnumber⟩ := codeLine?_eq_some_iff.1 hline
    obtain ⟨hle, hget⟩ := List.mk_mem_zipIdx_iff_le_and_getElem?_sub.1 hrow
    exact ⟨cs, hnumber ▸ hle, hnumber ▸ hget, hne, htext⟩
  · rintro ⟨cs, hle, hget, hne, htext⟩
    exact ⟨(cs, line.number), List.mk_mem_zipIdx_iff_le_and_getElem?_sub.2 ⟨hle, hget⟩,
      codeLine?_eq_some_iff.2 ⟨hne, htext, rfl⟩⟩

/-- Numbers go up from line to line. -/
theorem pairwise_numbered (rows : List (List Char)) :
    (numbered rows).Pairwise fun first second => first.number < second.number := by
  rw [numbered, List.pairwise_filterMap]
  have hnumbers : (rows.zipIdx 1).Pairwise fun first second => first.2 < second.2 := by
    rw [← List.pairwise_map, List.zipIdx_map_snd]
    exact List.pairwise_lt_range'
  refine hnumbers.imp fun hlt first hfirst second hsecond => ?_
  rw [(codeLine?_eq_some_iff.1 hfirst).2.2, (codeLine?_eq_some_iff.1 hsecond).2.2]
  exact hlt

/-- The code of a source is in its rows without comments. -/
theorem lines_eq_numbered (text : String) : lines text = numbered (bareRows text.toList) := by
  rw [numbered, bareRows, List.zipIdx_map, List.filterMap_map]
  rfl

/-! ### Rows that lose characters -/

/-- The pieces between marks, where no mark is lost: each of them is left of the piece in its
place. -/
theorem forall₂_splitOn {mark : Char} {ds cs : List Char} (h : ds.Sublist cs)
    (hmarks : ds.count mark = cs.count mark) :
    List.Forall₂ List.Sublist (List.splitOn mark ds) (List.splitOn mark cs) := by
  induction h with
  | slnil => exact .cons .slnil .nil
  | @cons ds cs c h ih =>
    have hle := h.count_le mark
    by_cases hc : c = mark
    · rw [hc, List.count_cons_self] at hmarks
      omega
    · rw [List.count_cons_of_ne hc] at hmarks
      have hrest := ih hmarks
      rw [List.splitOn_cons_eq_if_modifyHead, if_neg (by simpa using hc)]
      generalize List.splitOn mark ds = pieces, List.splitOn mark cs = pieces' at hrest ⊢
      cases hrest with
      | nil => exact .nil
      | cons hpiece hpieces => exact .cons (hpiece.cons c) hpieces
  | @cons_cons ds cs c h ih =>
    rw [List.count_cons, List.count_cons, Nat.add_right_cancel_iff] at hmarks
    have hrest := ih hmarks
    rw [List.splitOn_cons_eq_if_modifyHead, List.splitOn_cons_eq_if_modifyHead]
    generalize List.splitOn mark ds = pieces, List.splitOn mark cs = pieces' at hrest ⊢
    split
    · exact .cons .slnil hrest
    · cases hrest with
      | nil => exact .nil
      | cons hpiece hpieces => exact .cons (hpiece.cons_cons c) hpieces

theorem withoutBlocks_sublist (cs : List Char) : (withoutBlocks cs).Sublist cs := by
  fun_induction withoutBlocks cs with
  | case1 => exact .slnil
  | case2 rest inside after h _ ih =>
    have hinside : (inside.filter (· = '\n')).Sublist inside := List.filter_sublist
    rw [eq_of_cutAtPair h]
    exact ((hinside.append ((ih.cons '/').cons '*')).cons '*').cons '/'
  | case3 => exact List.Sublist.refl _
  | case4 c rest _ ih => exact ih.cons_cons c

/-- **A row without comments is left of the row of the source in its place.** -/
theorem forall₂_rows (cs : List Char) :
    List.Forall₂ List.Sublist (bareRows cs) (rows cs) := by
  rw [bareRows, List.forall₂_map_left_iff]
  refine (forall₂_splitOn (withoutBlocks_sublist cs) (count_withoutBlocks cs)).imp ?_
  exact fun row _ h => (withoutTail_begins row).sublist.trans h

/-! ### Lines of code -/

theorem holds_of_mem_lines {text : String} {line : Line} (h : line ∈ lines text) :
    Holds text line := by
  have huncommented := not_pair_of_mem_lines line.text (List.mem_map_of_mem h)
  rw [lines_eq_numbered, mem_numbered_iff] at h
  obtain ⟨bare, hpositive, hbare, hne, htext⟩ := h
  obtain ⟨hlength, hrows⟩ := List.forall₂_iff_get.1 (forall₂_rows text.toList)
  obtain ⟨hlt, hget⟩ := List.getElem?_eq_some_iff.1 hbare
  have hpart : line.text.toList.Sublist (rows text.toList)[line.number - 1] := by
    rw [htext]
    exact (trim_part bare).sublist.trans (hget ▸ hrows _ hlt (hlength ▸ hlt))
  exact {
    filled := fun hempty => hne (htext ▸ hempty ▸ rfl)
    trimmed := by rw [htext, trim_trim]
    oneLine := fun hmem =>
      not_mem_of_mem_splitOn (List.getElem_mem (hlength ▸ hlt)) (hpart.subset hmem)
    uncommented := huncommented
    positive := hpositive
    row := ⟨_, List.getElem?_eq_getElem (hlength ▸ hlt), hpart⟩ }

theorem Holds.number_le {text : String} {line : Line} (h : Holds text line) :
    line.number ≤ (rows text.toList).length := by
  obtain ⟨cs, hrow, -⟩ := h.row
  obtain ⟨hlt, -⟩ := List.getElem?_eq_some_iff.1 hrow
  have := h.positive
  omega

end Source

/-! ### Errors -/

/-- An error about a line is about one of the lines that are read. -/
theorem Schema.exists_line_of_error {lines : List Line} {problem : Problem} {number : Nat}
    (h : ofLines lines = .error problem) (hnumber : problem.line? = some number) :
    ∃ line ∈ lines, line.number = number ∧
      ∀ text, problem = .invalidLine number text → line.text = text := by
  obtain ⟨before, line, after, r, rfl, -, hstep⟩ := exists_blamed_line h fun kind name heq => by
    rw [heq] at hnumber
    cases hnumber
  have hline := Draft.step_error hstep
  refine ⟨line, by simp, Option.some.inj (hline.symm.trans hnumber), fun text heq => ?_⟩
  rw [heq] at hstep
  rw [Draft.eq_of_step_invalidLine hstep]

namespace Source

/-- **Line numbers are exact.** The lines of code of a text have ascending numbers, and each
consists of characters of the row of the text with its number. So an error that names a line names a
row of the text that holds code, and if it is about the line as a whole, it shows that code. -/
theorem numbers_exact (text : String) :
    ((lines text).Pairwise fun first second => first.number < second.number) ∧
    (∀ line ∈ lines text, Holds text line ∧ line.number ≤ (rows text.toList).length) ∧
    ∀ problem number, Schema.ofText text = .error problem → problem.line? = some number →
      ∃ line ∈ lines text, line.number = number ∧
        ∀ code, problem = .invalidLine number code → line.text = code := by
  refine ⟨?_, fun line hline => ?_, fun problem number h hnumber => ?_⟩
  · rw [lines_eq_numbered]
    exact pairwise_numbered _
  · have hholds := holds_of_mem_lines hline
    exact ⟨hholds, hholds.number_le⟩
  · exact Schema.exists_line_of_error h hnumber

/-- Code between comments, one of which goes over two rows. -/
def commentedText : String := "message A \x7b\n/* one\n two */ o/**/ops // x\n\x7d\n"

theorem numbers_exact_commented :
    Schema.ofText commentedText = .error (.invalidLine 3 "oops") ∧
      (⟨"oops", 3⟩ : Line) ∈ lines commentedText ∧ Holds commentedText ⟨"oops", 3⟩ := by
  have h : Schema.ofText commentedText = .error (.invalidLine 3 "oops") := by decide +kernel
  obtain ⟨-, hholds, herror⟩ := numbers_exact commentedText
  obtain ⟨line, hline, hnumber, htext⟩ := herror (.invalidLine 3 "oops") 3 h rfl
  have heq : line = ⟨"oops", 3⟩ := by rw [← hnumber, ← htext "oops" rfl]
  exact ⟨h, heq ▸ hline, heq ▸ (hholds line hline).1⟩

end Source
end SwiftWrap
