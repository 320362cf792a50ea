import SwiftWrap.Proofs.Placement

/-! What a finished text keeps of the lines that were written.

Blank lines may be taken back at any time, the depth changes between one line and the next, and
white space is cut off at the end of every line. None of it touches a line that is not blank: it
stays where it is, behind as many tabs as the depth was when it was added (`ink_run`).

`Script.finished_text` says so of every script, and that the text has no white space at the end of
a line and no blank line at its end. -/
namespace SwiftWrap
open Text

namespace Sheet

/-- A step that adds no line break inside a line. -/
def Step.OneLine : Step → Prop
  | .line text => '\n' ∉ text.toList
  | .lines _ => True
  | .blank => True
  | .indent => True
  | .dedent => True
  | .strip => True

instance (step : Step) : Decidable step.OneLine := by
  cases step <;> unfold Step.OneLine <;> infer_instance

/-- What is left in the end of lines that are added at some depth: those that are not blank, behind
their tabs and without white space at their ends. -/
def inked (depth : Nat) (lines : List String) : List String :=
  (lines.filter fun line => !isBlankLine line).map fun line => tabs depth ++ trimLine line

end Sheet

namespace Script
open Sheet

/-- What is left of the lines of a script, from some depth on. -/
def inked (depth : Nat) : Script → List String
  | [] => []
  | step :: rest => Sheet.inked depth step.added ++ inked (step.after depth) rest

end Script

/-- A text whose lines end in something to be seen. -/
structure IsFinished (text : String) : Prop where
  trimmed : ∀ line ∈ Sheet.linesOf text, ∀ c ∈ line.toList.getLast?, isBlank c = false
  /-- There is one line break at the end. -/
  ends : ∃ body, text.toList = body ++ ['\n'] ∧ body.getLast? ≠ some '\n'
  /-- There is no blank line in front of it, unless there is nothing else. -/
  inked : text = "\n" ∨
    ∃ front last, Sheet.linesOf text = front ++ [last, ""] ∧ Sheet.isBlankLine last = false

namespace Sheet

/-! ### Ink stays -/

theorem trimLine_tabs_append {line : String} (h : isBlankLine line = false) (depth : Nat) :
    trimLine (tabs depth ++ line) = tabs depth ++ trimLine line := by
  rw [← String.toList_inj]
  simp only [trimLine, String.toList_append, String.toList_ofList]
  exact trimEnd_append (isBlankLine_eq_false_iff.1 h) _

/-- The lines of a sheet that are not blank, as they will be in the finished text. -/
def ink (s : Sheet) : List String :=
  (s.above.reverse.filter fun line => !isBlankLine line).map trimLine

theorem ink_add (s : Sheet) (line : String) : (s.add line).ink = s.ink ++ inked s.depth [line] := by
  simp only [ink, inked, add, List.reverse_cons, List.filter_append, List.map_append]
  congr 1
  rw [List.filter_cons, List.filter_cons, isBlankLine_tabs]
  cases h : isBlankLine line with
  | true => rfl
  | false => exact congrArg (fun line => [line]) (trimLine_tabs_append h s.depth)

/-- Lines that are added keep the ink of those before. -/
theorem ink_foldl_add (s : Sheet) (lines : List String) :
    (lines.foldl add s).ink = s.ink ++ inked s.depth lines := by
  induction lines generalizing s with
  | nil => exact (List.append_nil _).symm
  | cons line rest ih =>
    have hcons : inked s.depth (line :: rest) = inked s.depth [line] ++ inked s.depth rest := by
      rw [inked, inked, inked, ← List.map_append, ← List.filter_append]
      rfl
    rw [List.foldl_cons, ih, ink_add, hcons, List.append_assoc]
    rfl

/-- Blank lines at the end are no ink. -/
theorem filter_dropWhile_blank (lines : List String) :
    (lines.dropWhile isBlankLine).reverse.filter (fun line => !isBlankLine line) =
      lines.reverse.filter fun line => !isBlankLine line := by
  rw [← List.filterMap_eq_filter, List.filterMap_eq_flatMap_toList,
    List.filterMap_eq_flatMap_toList]
  exact flatMap_dropWhile_blank (fun line hblank => by simp [hblank]) lines

/-- Whatever a step does, it leaves the ink that is there and adds its own. -/
theorem ink_step (s : Sheet) (step : Step) :
    (s.step step).ink = s.ink ++ inked s.depth step.added := by
  cases step with
  | line text => exact ink_add s text
  | lines text => exact ink_foldl_add s (linesOf text)
  | blank => exact ink_add s ""
  | indent => exact (List.append_nil _).symm
  | dedent => exact (List.append_nil _).symm
  | strip =>
    refine Eq.trans ?_ (List.append_nil _).symm
    exact congrArg (List.map trimLine) (filter_dropWhile_blank s.above)

/-- No step takes back ink, so a script adds its own. -/
theorem ink_run (s : Sheet) (script : Script) :
    (s.run script).ink = s.ink ++ script.inked s.depth := by
  induction script generalizing s with
  | nil => exact (List.append_nil _).symm
  | cons step rest ih =>
    show ((s.step step).run rest).ink = _
    rw [ih, ink_step, depth_step, List.append_assoc]
    rfl

/-! ### Lines of the finished text -/

/-- The lines that a sheet shows when it is finished. -/
def finished (s : Sheet) : List String := (s.above.dropWhile isBlankLine).reverse.map trimLine

theorem last_trimLine {line : String} {c : Char} (h : c ∈ (trimLine line).toList.getLast?) :
    isBlank c = false := by
  rw [trimLine, String.toList_ofList] at h
  exact last_trimEnd h

/-- The ink of a sheet is in its finished lines. -/
theorem filter_finished (s : Sheet) :
    s.finished.filter (fun line => !isBlankLine line) = s.ink := by
  have hblank : (fun line => !isBlankLine line) ∘ trimLine = fun line => !isBlankLine line :=
    funext fun line => by rw [Function.comp_apply, isBlankLine_trimLine]
  rw [finished, List.filter_map, hblank, filter_dropWhile_blank, ink]

/-- The last of the finished lines is not blank. -/
theorem finished_cases (s : Sheet) : s.finished = [] ∨
    ∃ front last, s.finished = front ++ [last] ∧ isBlankLine last = false := by
  cases h : s.above.dropWhile isBlankLine with
  | nil => exact .inl (by rw [finished, h]; rfl)
  | cons last rest =>
    have hlast := List.head?_dropWhile_not isBlankLine s.above
    rw [h] at hlast
    refine .inr ⟨rest.reverse.map trimLine, trimLine last, ?_, ?_⟩
    · rw [finished, h, List.reverse_cons, List.map_append]
      rfl
    · rw [isBlankLine_trimLine]
      simpa using hlast

theorem toList_text_finished (s : Sheet) :
    s.text.toList = ['\n'].intercalate (s.finished.map String.toList) ++ ['\n'] := by
  rw [toList_text, finished, List.map_map]
  rfl

theorem text_of_finished_nil {s : Sheet} (h : s.finished = []) : s.text = "\n" := by
  rw [text, ← finished, h]
  rfl

section Lines
variable {s : Sheet} (h : ∀ line ∈ s.above, '\n' ∉ line.toList)
include h

theorem oneLine_finished : ∀ line ∈ s.finished, '\n' ∉ line.toList := by
  intro trimmed htrimmed hmem
  obtain ⟨line, hline, rfl⟩ := List.mem_map.1 htrimmed
  obtain ⟨gap, hgap, -⟩ := exists_trimEnd line.toList
  rw [trimLine, String.toList_ofList] at hmem
  refine h line ((List.dropWhile_sublist _).mem (List.mem_reverse.1 hline)) ?_
  rw [hgap]
  exact List.mem_append_left gap hmem

/-- The lines of a finished text are the finished lines, and an empty one behind the last
break. -/
theorem linesOf_text (hne : s.finished ≠ []) : linesOf s.text = s.finished ++ [""] := by
  have hbreak : ∀ cs ∈ s.finished.map String.toList, '\n' ∉ cs := by
    intro cs hcs
    obtain ⟨line, hline, rfl⟩ := List.mem_map.1 hcs
    exact oneLine_finished h line hline
  have hid : String.ofList ∘ String.toList = id := funext fun _ => String.ofList_toList
  rw [linesOf, toList_text_finished, splitOn_intercalate_mark (by simpa using hne) hbreak,
    List.map_append, List.map_map, hid, List.map_id]
  rfl

/-- The lines of a finished text that are not blank are the ink of the sheet. -/
theorem filter_linesOf_text : (linesOf s.text).filter (fun line => !isBlankLine line) = s.ink := by
  have hempty : isBlankLine "" = true := by decide
  by_cases hnil : s.finished = []
  · rw [text_of_finished_nil hnil, ← filter_finished, hnil]
    decide
  · rw [linesOf_text h hnil, List.filter_append, filter_finished]
    simp [hempty]

theorem isFinished_text : IsFinished s.text := by
  rcases s.finished_cases with hnil | ⟨front, last, hlast, hink⟩
  · have hlines : linesOf "\n" = ["", ""] := by decide
    rw [text_of_finished_nil hnil]
    exact ⟨by simp [hlines], ⟨[], rfl, by simp⟩, .inl rfl⟩
  · have hlines : linesOf s.text = s.finished ++ [""] := linesOf_text h (by simp [hlast])
    refine ⟨fun line hline c hc => ?_, ?_, .inr ⟨front, last, ?_, hink⟩⟩
    · rw [hlines] at hline
      rcases List.mem_append.1 hline with hline | hline
      · obtain ⟨line, -, rfl⟩ := List.mem_map.1 hline
        exact last_trimLine hc
      · rw [List.mem_singleton.1 hline] at hc
        cases hc
    · refine ⟨_, toList_text_finished s, fun hbreak => ?_⟩
      obtain ⟨c, hc, -⟩ := isBlankLine_eq_false_iff.1 hink
      obtain ⟨before, hbefore⟩ := suffix_intercalate ['\n'] (front.map String.toList) last.toList
      have hlastBreak : '\n' ∈ last.toList.getLast? := by
        rw [hlast, List.map_append, List.map_singleton, ← hbefore,
          List.getLast?_append_of_ne_nil before (List.ne_nil_of_mem hc)] at hbreak
        exact hbreak
      have hmem : last ∈ s.finished := hlast ▸ List.mem_append_right front List.mem_cons_self
      exact oneLine_finished h last hmem (List.mem_of_getLast? hlastBreak)
    · rw [hlines, hlast, List.append_assoc]
      rfl

end Lines

theorem Step.OneLine.added {step : Step} (h : step.OneLine) :
    ∀ line ∈ step.added, '\n' ∉ line.toList := by
  cases step with
  | line text => exact List.forall_mem_singleton.2 h
  | lines text =>
    intro line hline
    obtain ⟨piece, hpiece, rfl⟩ := List.mem_map.1 hline
    rw [String.toList_ofList]
    exact not_mem_of_mem_splitOn hpiece
  | blank => exact List.forall_mem_singleton.2 (by decide)
  | indent => simp [Step.added]
  | dedent => simp [Step.added]
  | strip => simp [Step.added]

end Sheet

namespace Script
open Sheet

/-- **A finished text has all the ink of its script, and nothing behind it.** Its lines that are
not blank are, in order, the lines that were added and are not blank, each behind as many tabs as
the depth was then and without white space at its end. -/
theorem finished_text {script : Script} (h : ∀ step ∈ script, step.OneLine) :
    IsFinished script.text ∧
      (linesOf script.text).filter (fun line => !isBlankLine line) = script.inked 0 := by
  have hbreak : ∀ line ∈ (empty.run script).above, '\n' ∉ line.toList := by
    intro line hline
    rcases mem_above_run hline with hempty | ⟨step, hstep, added, hadded, depth, rfl⟩
    · cases hempty
    · rw [String.toList_append, List.mem_append, not_or]
      exact ⟨(plain_tabs depth).1, (h step hstep).added added hadded⟩
  refine ⟨isFinished_text hbreak, ?_⟩
  rw [text, filter_linesOf_text hbreak, ink_run]
  rfl

/-- A script with steps of all kinds. It leaves a block once more than it has entered one. -/
def mixedSteps : Script :=
  [.line "a \x7b", .indent, .lines "b \n\n\t c\t", .blank, .strip, .dedent, .dedent, .line "\x7d ",
    .blank]

theorem finished_text_mixed : (∀ step ∈ mixedSteps, step.OneLine) ∧ IsFinished mixedSteps.text ∧
    (linesOf mixedSteps.text).filter (fun line => !isBlankLine line) =
      ["a \x7b", "\tb", "\t\t c", "\x7d"] := by
  have hone : ∀ step ∈ mixedSteps, step.OneLine := by decide
  have hinked : mixedSteps.inked 0 = ["a \x7b", "\tb", "\t\t c", "\x7d"] := by decide
  obtain ⟨hfinished, hink⟩ := finished_text hone
  exact ⟨hone, hfinished, hink.trans hinked⟩

end Script
end SwiftWrap
