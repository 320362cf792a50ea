import SwiftWrap.Proofs.Text
import SwiftWrap.Sheet
import SwiftWrap.Source
import Mathlib.Data.List.Basic

/-! What a script shows, and how it is read back.

A script shows the lines that it adds, less white space around them and less those of white
space alone; depth, blank lines and taking back blank lines change nothing of it
(`shown_run`). If no line holds a line break and nothing in the finished text is a comment,
its lines of code are exactly the lines shown (`lines_text`). -/
namespace SwiftWrap
open Text

/-- A line without white space around it, if anything is left. -/
def shownLine (line : String) : List String :=
  match trim line.toList with
  | [] => []
  | cs => [.ofList cs]

namespace Sheet

/-- What a step adds to the lines that show. -/
def Step.shown : Step → List String
  | .line text => shownLine text
  | .lines text => (linesOf text).flatMap shownLine
  | .blank => []
  | .indent => []
  | .dedent => []
  | .strip => []

/-- The lines of a sheet that show, from the first to the last. -/
def shown (s : Sheet) : List String := s.above.reverse.flatMap shownLine

theorem isBlankLine_append (first second : String) :
    isBlankLine (first ++ second) = (isBlankLine first && isBlankLine second) := by
  unfold isBlankLine allBlank
  rw [String.toList_append, List.all_append]

theorem isBlankLine_tabs (depth : Nat) (line : String) :
    isBlankLine (tabs depth ++ line) = isBlankLine line := by
  have htab : isBlank '\t' = true := by decide
  have htabs : isBlankLine (tabs depth) = true := by
    simp [isBlankLine, allBlank, tabs, htab]
  rw [isBlankLine_append, htabs, Bool.true_and]

theorem isBlankLine_eq_false_iff {line : String} :
    isBlankLine line = false ↔ ∃ c ∈ line.toList, isBlank c = false := by
  unfold isBlankLine allBlank
  rw [List.all_eq_false]
  simp only [Bool.not_eq_true]

theorem isBlankLine_trimLine (line : String) : isBlankLine (trimLine line) = isBlankLine line := by
  obtain ⟨gap, hline, hgap⟩ := exists_trimEnd line.toList
  have hall : gap.all isBlank = true := List.all_eq_true.2 hgap
  calc isBlankLine (trimLine line)
    _ = (trimEnd line.toList).all isBlank := by
      rw [isBlankLine, allBlank, trimLine, String.toList_ofList]
    _ = (trimEnd line.toList ++ gap).all isBlank := by rw [List.all_append, hall, Bool.and_true]
    _ = isBlankLine line := by rw [← hline, isBlankLine, allBlank]

theorem shownLine_of_blank {line : String} (h : isBlankLine line = true) : shownLine line = [] := by
  rw [shownLine, trim_eq_nil_iff.2 (List.all_eq_true.1 h)]

theorem shownLine_tabs (depth : Nat) (line : String) :
    shownLine (tabs depth ++ line) = shownLine line := by
  have htabs : ∀ c ∈ (tabs depth).toList, isBlank c = true := by
    intro c hc
    rw [tabs, String.toList_ofList] at hc
    rw [List.eq_of_mem_replicate hc]
    decide
  have htrim : trim ((tabs depth).toList ++ line.toList ++ []) = trim line.toList :=
    trim_blank htabs (by simp)
  rw [List.append_nil] at htrim
  rw [shownLine, String.toList_append, htrim, shownLine]

theorem shown_add (s : Sheet) (line : String) : (s.add line).shown = s.shown ++ shownLine line := by
  simp only [shown, add, List.reverse_cons, List.flatMap_append, List.flatMap_singleton,
    shownLine_tabs]

/-- Lines that are added are shown behind those before. -/
theorem shown_foldl_add (s : Sheet) (lines : List String) :
    (lines.foldl add s).shown = s.shown ++ lines.flatMap shownLine := by
  induction lines generalizing s with
  | nil => simp
  | cons line rest ih =>
    rw [List.foldl_cons, ih, shown_add, List.flatMap_cons, List.append_assoc]

/-- Where a blank line yields nothing, neither do the blank lines at the end. -/
theorem flatMap_dropWhile_blank {yields : String → List α}
    (h : ∀ line, isBlankLine line = true → yields line = []) (lines : List String) :
    (lines.dropWhile isBlankLine).reverse.flatMap yields = lines.reverse.flatMap yields := by
  induction lines with
  | nil => rfl
  | cons line rest ih =>
    rw [List.dropWhile_cons]
    split
    · next hblank => simp [ih, h line hblank]
    · rfl

theorem shown_step (s : Sheet) (step : Step) : (s.step step).shown = s.shown ++ step.shown := by
  cases step with
  | line text => exact shown_add s text
  | lines text => exact shown_foldl_add s (linesOf text)
  | blank => exact shown_add s ""
  | indent => exact (List.append_nil _).symm
  | dedent => exact (List.append_nil _).symm
  | strip =>
    rw [Step.shown, List.append_nil]
    exact flatMap_dropWhile_blank (fun _ => shownLine_of_blank) s.above

/-- A script shows what its steps show, whatever the depth. -/
theorem shown_run (s : Sheet) (script : Script) :
    (s.run script).shown = s.shown ++ script.flatMap Step.shown := by
  induction script generalizing s with
  | nil => simp [run]
  | cons step rest ih =>
    show ((s.step step).run rest).shown = _
    rw [ih, shown_step, List.flatMap_cons, List.append_assoc]

/-! ### Where the lines come from -/

/-- The lines that a step adds, without the tabs in front of them. -/
def Step.added : Step → List String
  | .line text => [text]
  | .lines text => linesOf text
  | .blank => [""]
  | .indent => []
  | .dedent => []
  | .strip => []

theorem mem_above_foldl_add {s : Sheet} {lines : List String} {line : String}
    (h : line ∈ (lines.foldl add s).above) :
    line ∈ s.above ∨ ∃ added ∈ lines, line = tabs s.depth ++ added := by
  induction lines generalizing s with
  | nil => exact .inl h
  | cons first rest ih =>
    rcases ih h with hadd | ⟨added, hadded, rfl⟩
    · rcases List.mem_cons.1 hadd with rfl | hadd
      · exact .inr ⟨first, List.mem_cons_self, rfl⟩
      · exact .inl hadd
    · exact .inr ⟨added, List.mem_cons_of_mem first hadded, rfl⟩

/-- A line on the sheet after a step was there before it, or the step added it. -/
theorem mem_above_step {s : Sheet} {step : Step} {line : String} (h : line ∈ (s.step step).above) :
    line ∈ s.above ∨ ∃ added ∈ step.added, line = tabs s.depth ++ added := by
  cases step with
  | line text => exact @mem_above_foldl_add s [text] line h
  | lines text => exact mem_above_foldl_add h
  | blank => exact @mem_above_foldl_add s [""] line h
  | indent => exact .inl h
  | dedent => exact .inl h
  | strip => exact .inl ((List.dropWhile_sublist _).mem h)

/-- Every line of a sheet was added by some step. -/
theorem mem_above_run {s : Sheet} {script : Script} {line : String}
    (h : line ∈ (s.run script).above) :
    line ∈ s.above ∨ ∃ step ∈ script, ∃ added ∈ step.added, ∃ depth, line = tabs depth ++ added := by
  induction script generalizing s with
  | nil => exact .inl h
  | cons step rest ih =>
    rcases ih (s := s.step step) h with hstep | ⟨later, hlater, hadded⟩
    · rcases mem_above_step hstep with hs | ⟨added, hadded, rfl⟩
      · exact .inl hs
      · exact .inr ⟨step, List.mem_cons_self, added, hadded, s.depth, rfl⟩
    · exact .inr ⟨later, List.mem_cons_of_mem step hlater, hadded⟩

/-! ### Plain lines and clear lines -/

/-- A line that ends nowhere and starts no comment. -/
def Plain (line : String) : Prop := '\n' ∉ line.toList ∧ '/' ∉ line.toList

instance (line : String) : Decidable (Plain line) := inferInstanceAs (Decidable (_ ∧ _))

/-- A line that ends nowhere and has no comment at its end. -/
def Clear (line : String) : Prop := '\n' ∉ line.toList ∧ ¬['/', '/'] <:+: line.toList

/-- A step that adds only plain lines. -/
def Step.Plain : Step → Prop
  | .line text => Sheet.Plain text
  | .lines text => ∀ line ∈ linesOf text, Sheet.Plain line
  | .blank => True
  | .indent => True
  | .dedent => True
  | .strip => True

/-- A sheet of plain lines. -/
def AllPlain (s : Sheet) : Prop := ∀ line ∈ s.above, Plain line

theorem Plain.append {first second : String} (h : Plain first) (h' : Plain second) :
    Plain (first ++ second) := by
  unfold Plain
  simp only [String.toList_append, List.mem_append, not_or]
  exact ⟨⟨h.1, h'.1⟩, h.2, h'.2⟩

/-- Where no slash stands there is no comment. -/
theorem Plain.clear {line : String} (h : Plain line) : Clear line :=
  ⟨h.1, fun hpair => h.2 (hpair.subset List.mem_cons_self)⟩

theorem plain_tabs (depth : Nat) : Plain (tabs depth) := by
  unfold Plain
  simp [tabs, List.mem_replicate]

theorem clear_tabs_append {line : String} (h : Clear line) (depth : Nat) :
    Clear (tabs depth ++ line) := by
  unfold Clear
  rw [String.toList_append, tabs, String.toList_ofList]
  induction depth with
  | zero => exact h
  | succ depth ih =>
    rw [List.replicate_succ, List.cons_append, List.mem_cons, List.infix_cons_iff,
      List.cons_prefix_cons]
    simpa using ih

theorem Step.Plain.added {step : Step} (h : step.Plain) : ∀ line ∈ step.added, Sheet.Plain line := by
  cases step with
  | line text => exact List.forall_mem_singleton.2 h
  | lines text => exact h
  | blank => exact List.forall_mem_singleton.2 (by decide)
  | indent => simp [Step.added]
  | dedent => simp [Step.added]
  | strip => simp [Step.added]

theorem Step.plain_of_added {step : Step} (h : ∀ line ∈ step.added, Sheet.Plain line) :
    step.Plain := by
  cases step with
  | line text => exact h text List.mem_cons_self
  | lines text => exact h
  | blank => exact trivial
  | indent => exact trivial
  | dedent => exact trivial
  | strip => exact trivial

/-- Plain steps write plain lines. -/
theorem AllPlain.run {s : Sheet} {script : Script} (hs : s.AllPlain)
    (hscript : ∀ step ∈ script, step.Plain) : (s.run script).AllPlain := by
  intro line hline
  rcases mem_above_run hline with hline | ⟨step, hstep, added, hadded, depth, rfl⟩
  · exact hs line hline
  · exact (plain_tabs depth).append ((hscript step hstep).added added hadded)

end Sheet

/-! ### Reading back -/

namespace Source

/-- A block comment that is closed stands in a text. -/
def HoldsComment (cs : List Char) : Prop := ∃ inside, '/' :: '*' :: (inside ++ ['*', '/']) <:+: cs

/-- Text without comments is left as it is. -/
theorem withoutBlocks_eq_self {cs : List Char} (h : ¬HoldsComment cs) : withoutBlocks cs = cs := by
  fun_induction withoutBlocks cs with
  | case1 => rfl
  | case2 rest inside after hcut =>
    refine absurd ⟨inside, [], after, ?_⟩ h
    simp [eq_of_cutAtPair hcut]
  | case3 => rfl
  | case4 c rest _ ih =>
    have hrest : ¬HoldsComment rest := by
      rintro ⟨inside, hinside⟩
      exact h ⟨inside, hinside.trans (List.suffix_cons c rest).isInfix⟩
    rw [ih hrest]

theorem withoutTail_eq_self {cs : List Char} (h : ¬['/', '/'] <:+: cs) : withoutTail cs = cs := by
  rw [withoutTail, cutAtPair_eq_none_iff.2 h]

/-- The texts of lines of code do not depend on where the numbers start. -/
theorem texts_zipIdx (pieces : List (List Char)) (start : Nat) :
    ((pieces.zipIdx start).filterMap fun (cs, number) =>
      match code cs with
      | [] => none
      | c :: rest => some (⟨.ofList (c :: rest), number⟩ : Line)).map (·.text) =
      pieces.flatMap fun cs => shownLine (.ofList (withoutTail cs)) := by
  induction pieces generalizing start with
  | nil => rfl
  | cons cs rest ih =>
    simp only [List.zipIdx_cons, List.filterMap_cons, List.flatMap_cons, shownLine,
      String.toList_ofList, code] at ih ⊢
    cases trim (withoutTail cs) with
    | nil => exact ih (start + 1)
    | cons c tail => exact congrArg (String.ofList (c :: tail) :: ·) (ih (start + 1))

/-- The code is what shows of the lines that are left. -/
theorem texts_lines (text : String) : (lines text).map (·.text) =
    (List.splitOn '\n' (withoutBlocks text.toList)).flatMap fun cs =>
      shownLine (.ofList (withoutTail cs)) :=
  texts_zipIdx _ 1

end Source

namespace Sheet

/-- A line that is trimmed is read the same. -/
theorem shownLine_trimLine (line : String) : shownLine (trimLine line) = shownLine line := by
  obtain ⟨gap, hline, hgap⟩ := exists_trimEnd line.toList
  have htrim : trim line.toList = trim (trimEnd line.toList) :=
    calc trim line.toList
      _ = trim ([] ++ trimEnd line.toList ++ gap) := congrArg trim hline
      _ = trim (trimEnd line.toList) := trim_blank (by simp) hgap
  rw [shownLine, trimLine, String.toList_ofList, ← htrim, shownLine]

theorem clear_trimLine {line : String} (h : Clear line) : Clear (trimLine line) := by
  obtain ⟨gap, hline, -⟩ := exists_trimEnd line.toList
  have hstart : (trimLine line).toList <+: line.toList := by
    rw [trimLine, String.toList_ofList]
    exact ⟨gap, hline.symm⟩
  exact ⟨fun hmem => h.1 (hstart.subset hmem), fun hpair => h.2 (hpair.trans hstart.isInfix)⟩

/-- The lines of a text, one after another. -/
theorem toList_text (s : Sheet) : s.text.toList =
    ['\n'].intercalate ((s.above.dropWhile isBlankLine).reverse.map fun line =>
      (trimLine line).toList) ++ ['\n'] := by
  rw [text, String.toList_append, String.toList_intercalate, List.map_map]
  rfl

/-- The code of the finished text is what shows on the sheet, if nothing in it is a comment. -/
theorem lines_text {s : Sheet} (h : ∀ line ∈ s.above, Clear line)
    (hcomment : ¬Source.HoldsComment s.text.toList) :
    (Source.lines s.text).map (·.text) = s.shown := by
  have hclear : ∀ line ∈ (s.above.dropWhile isBlankLine).reverse, Clear (trimLine line) :=
    fun line hline =>
      clear_trimLine (h line ((List.dropWhile_sublist _).mem (List.mem_reverse.1 hline)))
  have hbreak : ∀ cs ∈ (s.above.dropWhile isBlankLine).reverse.map fun line =>
      (trimLine line).toList, '\n' ∉ cs := by
    intro cs hcs
    obtain ⟨line, hline, rfl⟩ := List.mem_map.1 hcs
    exact (hclear line hline).1
  have hpiece : ∀ line ∈ (s.above.dropWhile isBlankLine).reverse,
      shownLine (.ofList (Source.withoutTail (trimLine line).toList)) = shownLine line := by
    intro line hline
    rw [Source.withoutTail_eq_self (hclear line hline).2, String.ofList_toList, shownLine_trimLine]
  rw [Source.texts_lines, Source.withoutBlocks_eq_self hcomment, toList_text,
    flatMap_splitOn_intercalate (by rfl) hbreak, List.flatMap_map, List.flatMap_congr hpiece,
    flatMap_dropWhile_blank fun _ => shownLine_of_blank, shown]

/-- The characters of a finished text are line breaks and those of its lines. -/
theorem mem_text {s : Sheet} {c : Char} (h : c ∈ s.text.toList) :
    c = '\n' ∨ ∃ line ∈ s.above, c ∈ line.toList := by
  rw [toList_text] at h
  rcases List.mem_append.1 h with h | h
  · rcases mem_intercalate h with h | ⟨cs, hcs, h⟩
    · exact .inl (List.mem_singleton.1 h)
    · obtain ⟨line, hline, rfl⟩ := List.mem_map.1 hcs
      obtain ⟨gap, hgap, -⟩ := exists_trimEnd line.toList
      rw [trimLine, String.toList_ofList] at h
      refine .inr ⟨line, (List.dropWhile_sublist _).mem (List.mem_reverse.1 hline), ?_⟩
      rw [hgap]
      exact List.mem_append_left gap h
  · exact .inl (List.mem_singleton.1 h)

theorem AllPlain.not_holdsComment {s : Sheet} (h : s.AllPlain) :
    ¬Source.HoldsComment s.text.toList := by
  rintro ⟨inside, hinside⟩
  rcases mem_text (hinside.subset List.mem_cons_self) with hbreak | ⟨line, hline, hslash⟩
  · cases hbreak
  · exact (h line hline).2 hslash

end Sheet

namespace Script

/-- **The code of a script's text is what its steps show**, if nothing in the text is a
comment. -/
theorem lines_text_of_clear {script : Script}
    (h : ∀ step ∈ script, ∀ line ∈ step.added, Sheet.Clear line)
    (hcomment : ¬Source.HoldsComment script.text.toList) :
    (Source.lines script.text).map (·.text) = script.flatMap Sheet.Step.shown := by
  have hclear : ∀ line ∈ (Sheet.empty.run script).above, Sheet.Clear line := by
    intro line hline
    rcases Sheet.mem_above_run hline with hempty | ⟨step, hstep, added, hadded, depth, rfl⟩
    · cases hempty
    · exact Sheet.clear_tabs_append (h step hstep added hadded) depth
  rw [text, Sheet.lines_text hclear hcomment, Sheet.shown_run]
  rfl

/-- The same for steps that add plain lines only. -/
theorem lines_text {script : Script} (h : ∀ step ∈ script, step.Plain) :
    (Source.lines script.text).map (·.text) = script.flatMap Sheet.Step.shown := by
  have hempty : Sheet.empty.AllPlain := by
    intro line hline
    cases hline
  exact lines_text_of_clear (fun step hstep line hline => ((h step hstep).added line hline).clear)
    (hempty.run h).not_holdsComment

end Script
end SwiftWrap
