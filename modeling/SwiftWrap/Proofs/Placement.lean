import SwiftWrap.Proofs.Sheet
import SwiftWrap.Schema.Basic

/-! Generated code read back by its tabs.

The lines of a text have a depth, the number of tabs in front of them (`Code.lines`). Some
lines are headings, and what is deeper than a heading stands under it: going up from a line,
the headings around it are those that are less deep than every line in between
(`Code.around`).

A script that ends at the depth at which it started (`Script.Level`) writes its lines at that
depth and below. So it stands under the headings above it as a whole, and leaves them as they
are for what follows; `Code.Anchored` is what is known about the lines above. -/
namespace SwiftWrap
open Text

/-- A line of code: how many tabs stand in front of it, and the rest. -/
structure CodeLine where
  depth : Nat
  text : String
deriving DecidableEq

/-- A line of code with the names of the headings around it, the outermost first. -/
structure Placed where
  around : List String
  depth : Nat
  text : String
deriving DecidableEq

/-- Every tab in front of the line is due to a heading around it. -/
def Placed.IsDirect (l : Placed) : Prop := l.depth = l.around.length

instance (l : Placed) : Decidable l.IsDirect := inferInstanceAs (Decidable (_ = _))

namespace Code

/-! ### Reading -/

/-- A line with its depth; a blank line is none. -/
def line? (cs : List Char) : Option CodeLine :=
  if allBlank cs then none
  else some ⟨(cs.takeWhile (· = '\t')).length, .ofList (cs.dropWhile (· = '\t'))⟩

/-- The lines of a text that are not blank. -/
def lines (code : String) : List CodeLine := (List.splitOn '\n' code.toList).filterMap line?

/-- What stands between a beginning and an ending of a text. -/
def between? (start ending text : String) : Option String := do
  let rest ← after? start.toList text.toList
  let inner ← after? ending.toList.reverse rest.reverse
  return .ofList inner.reverse

/-- The kind and the name of a wrapper, from the line that opens it. -/
def heading? (text : String) : Option (Kind × String) :=
  match between? "@objc public class " ": NSObject \x7b" text with
  | some name => some (.message, name)
  | none => (between? "@objc public enum " ": Int32 \x7b" text).map (Kind.enumeration, ·)

/-- The headings around a line of some depth, from the lines above it, the nearest first. -/
def around : List CodeLine → Nat → List String
  | [], _ => []
  | line :: above, depth =>
    if line.depth < depth then
      around above line.depth ++ ((heading? line.text).map Prod.snd).toList
    else around above depth

/-- Lines with the headings around them. -/
def place (above : List CodeLine) : List CodeLine → List Placed
  | [] => []
  | line :: rest => ⟨around above line.depth, line.depth, line.text⟩ :: place (line :: above) rest

/-- The lines of a text that are not blank, with the headings around them. -/
def outline (code : String) : List Placed := place [] (lines code)

end Code

/-! ### What a script writes -/

namespace Sheet

/-- A line that a sheet carries unchanged behind tabs. -/
structure Tight (line : String) : Prop where
  oneLine : '\n' ∉ line.toList
  starts : ∃ c ∈ line.toList.head?, isBlank c = false
  ends : ∃ c ∈ line.toList.getLast?, isBlank c = false

/-- The lines that a step adds, less those of white space. -/
def Step.texts : Step → List String
  | .line text => [text]
  | .lines text => (linesOf text).filter fun line => !isBlankLine line
  | .blank => []
  | .indent => []
  | .dedent => []
  | .strip => []

/-- The depth after a step. -/
def Step.after (depth : Nat) : Step → Nat
  | .line _ => depth
  | .lines _ => depth
  | .blank => depth
  | .indent => depth + 1
  | .dedent => depth - 1
  | .strip => depth

end Sheet

namespace Script

/-- The lines that a script adds, less those of white space. -/
def texts (script : Script) : List String := script.flatMap Sheet.Step.texts

/-- The depth after a script. -/
def after (depth : Nat) (script : Script) : Nat := script.foldl Sheet.Step.after depth

/-- The lines that a script adds from some depth on. -/
def entries (depth : Nat) : Script → List CodeLine
  | [] => []
  | step :: rest => step.texts.map (⟨depth, ·⟩) ++ entries (step.after depth) rest

/-- The lines of scripts one after another, the second at the depth that the first leaves. -/
theorem entries_append (first second : Script) (depth : Nat) :
    entries depth (first ++ second) =
      entries depth first ++ entries (after depth first) second := by
  induction first generalizing depth with
  | nil => rfl
  | cons step rest ih => simp only [List.cons_append, entries, ih, List.append_assoc, after,
      List.foldl_cons]

/-- A script that ends at the depth at which it started, and is never less deep. -/
inductive Level : Script → Prop where
  | nil : Level []
  | line (text : String) : Level [.line text]
  | lines (text : String) : Level [.lines text]
  | blank : Level [.blank]
  | strip : Level [.strip]
  | append {first second : Script} (h : Level first) (h' : Level second) : Level (first ++ second)
  | deeper {body : Script} (h : Level body) : Level (.indent :: body ++ [.dedent])

namespace Level

theorem cons {step : Sheet.Step} {rest : Script} (h : Level [step]) (h' : Level rest) :
    Level (step :: rest) := h.append h'

theorem braced {body : Script} (h : Level body) (head : String) : Level (braced head body) := by
  have heq : Script.braced head body =
      [.line (head ++ " \x7b")] ++ (.indent :: body ++ [.dedent]) ++ [.line "\x7d"] := by
    simp [Script.braced]
  rw [heq]
  exact ((line _).append h.deeper).append (line _)

/-- A level script comes back to its depth. -/
theorem after_eq {script : Script} (h : Level script) (depth : Nat) : after depth script = depth := by
  induction h generalizing depth with
  | nil => rfl
  | line => rfl
  | lines => rfl
  | blank => rfl
  | strip => rfl
  | append _ _ ih ih' =>
    unfold Script.after at ih ih' ⊢
    rw [List.foldl_append, ih, ih']
  | deeper _ ih =>
    unfold Script.after at ih ⊢
    rw [List.cons_append, List.foldl_cons, List.foldl_append, ih]
    rfl

theorem entries_append {first second : Script} (h : Level first) (depth : Nat) :
    entries depth (first ++ second) = entries depth first ++ entries depth second := by
  rw [Script.entries_append, h.after_eq]

theorem entries_braced {body : Script} (h : Level body) (head : String) (depth : Nat) :
    entries depth (Script.braced head body) =
      ⟨depth, head ++ " \x7b"⟩ :: entries (depth + 1) body ++ [⟨depth, "\x7d"⟩] := by
  have hclose : Script.after (depth + 1) body - 1 = depth := by rw [h.after_eq]; rfl
  simp only [Script.braced, List.cons_append, List.nil_append, entries, Sheet.Step.texts,
    Sheet.Step.after, List.map_cons, List.map_nil, Script.entries_append, hclose]

/-- And none of its lines stands less deep. -/
theorem le_depth {script : Script} (h : Level script) {depth : Nat} :
    ∀ l ∈ entries depth script, depth ≤ l.depth := by
  induction h generalizing depth with
  | nil => simp [entries]
  | line => simp [entries, Sheet.Step.texts]
  | lines =>
    intro l hl
    simp only [entries, List.append_nil, List.mem_map] at hl
    obtain ⟨text, -, rfl⟩ := hl
    exact Nat.le_refl _
  | blank => simp [entries, Sheet.Step.texts]
  | strip => simp [entries, Sheet.Step.texts]
  | append h _ ih ih' =>
    rw [h.entries_append]
    exact List.forall_mem_append.2 ⟨ih, ih'⟩
  | @deeper body _ ih =>
    intro l hl
    simp only [List.cons_append, entries, Script.entries_append, Sheet.Step.texts,
      Sheet.Step.after, List.map_nil, List.nil_append, List.append_nil] at hl
    have := ih l hl
    omega

end Level

theorem map_text_entries (script : Script) (depth : Nat) :
    (entries depth script).map (·.text) = script.texts := by
  induction script generalizing depth with
  | nil => rfl
  | cons step rest ih =>
    rw [entries, List.map_append, ih, List.map_map]
    exact congrArg (· ++ texts rest) (List.map_id _)

end Script

/-! ### Reading a script back -/

namespace Sheet

/-- The lines of a sheet that are not blank, from the first to the last. -/
def written (s : Sheet) : List CodeLine := s.above.reverse.filterMap (Code.line? ·.toList)

/-- A line is read back with the tabs in front of it as its depth. -/
theorem Tight.line?_tabs {line : String} (h : Tight line) (depth : Nat) :
    Code.line? (tabs depth ++ line).toList = some ⟨depth, line⟩ := by
  obtain ⟨c, hc, hblank⟩ := h.starts
  have hmem : c ∈ (tabs depth ++ line).toList := by
    rw [String.toList_append]
    exact List.mem_append_right _ (List.mem_of_mem_head? hc)
  have hink : allBlank (tabs depth ++ line).toList = false := by
    rw [allBlank, List.all_eq_false]
    exact ⟨c, hmem, by simp [hblank]⟩
  have htabs : ∀ x ∈ (tabs depth).toList, decide (x = '\t') = true := by
    simp [tabs, List.mem_replicate]
  have hstop : Stops (fun x => decide (x = '\t')) line.toList := by
    intro x hx
    rw [Option.mem_def] at hc hx
    rw [hc] at hx
    cases hx
    rw [decide_eq_false_iff_not]
    intro htab
    rw [htab] at hblank
    exact absurd hblank (by decide)
  rw [Code.line?, hink, String.toList_append, takeWhile_run htabs hstop, dropWhile_run htabs hstop,
    String.ofList_toList]
  simp [tabs]

theorem line?_of_blank {line : String} (h : isBlankLine line = true) :
    Code.line? line.toList = none :=
  if_pos h

theorem trimLine_tabs {line : String} (h : ∃ c ∈ line.toList.getLast?, isBlank c = false)
    (depth : Nat) : trimLine (tabs depth ++ line) = tabs depth ++ line := by
  obtain ⟨c, hc, hblank⟩ := h
  obtain ⟨front, hfront⟩ := List.getLast?_eq_some_iff.1 hc
  have hlist : (tabs depth ++ line).toList = ((tabs depth).toList ++ front) ++ [c] := by
    rw [String.toList_append, hfront, List.append_assoc]
  rw [trimLine, hlist, trimEnd_append_of_last hblank, ← hlist, String.ofList_toList]

/-- A line that is blank, or tight behind its tabs. -/
def Settled (line : String) : Prop :=
  isBlankLine line = true ∧ '\n' ∉ line.toList ∨ ∃ depth text, line = tabs depth ++ text ∧ Tight text

theorem Settled.oneLine {line : String} (h : Settled line) : '\n' ∉ line.toList := by
  rcases h with h | ⟨depth, text, rfl, h⟩
  · exact h.2
  · rw [String.toList_append, List.mem_append, not_or]
    exact ⟨(plain_tabs depth).1, h.oneLine⟩

theorem Settled.trimLine {line : String} (h : Settled line) :
    Code.line? (trimLine line).toList = Code.line? line.toList := by
  rcases h with ⟨h, -⟩ | ⟨depth, text, rfl, h⟩
  · rw [line?_of_blank h, line?_of_blank ((isBlankLine_trimLine line).trans h)]
  · rw [trimLine_tabs h.ends]

theorem filterMap_dropWhile_blank (lines : List String) :
    (lines.dropWhile isBlankLine).reverse.filterMap (Code.line? ·.toList) =
      lines.reverse.filterMap (Code.line? ·.toList) := by
  rw [List.filterMap_eq_flatMap_toList, List.filterMap_eq_flatMap_toList]
  exact flatMap_dropWhile_blank (fun _ hblank => congrArg _ (line?_of_blank hblank)) lines

/-- The lines of a finished text are those written on the sheet. -/
theorem lines_text_eq_written {s : Sheet} (h : ∀ line ∈ s.above, Settled line) :
    Code.lines s.text = s.written := by
  have hsettled : ∀ line ∈ (s.above.dropWhile isBlankLine).reverse, Settled line := fun line hline =>
    h line ((List.dropWhile_sublist _).mem (List.mem_reverse.1 hline))
  have hbreak : ∀ cs ∈ (s.above.dropWhile isBlankLine).reverse.map fun line =>
      (trimLine line).toList, '\n' ∉ cs := by
    intro cs hcs hmem
    obtain ⟨line, hline, rfl⟩ := List.mem_map.1 hcs
    obtain ⟨gap, hgap, -⟩ := exists_trimEnd line.toList
    rw [trimLine, String.toList_ofList] at hmem
    apply (hsettled line hline).oneLine
    rw [hgap]
    exact List.mem_append_left gap hmem
  have hpiece : ∀ line ∈ (s.above.dropWhile isBlankLine).reverse,
      (Code.line? (trimLine line).toList).toList = (Code.line? line.toList).toList :=
    fun line hline => by rw [(hsettled line hline).trimLine]
  rw [Code.lines, toList_text, List.filterMap_eq_flatMap_toList,
    flatMap_splitOn_intercalate (by rfl) hbreak, List.flatMap_map, List.flatMap_congr hpiece,
    ← List.filterMap_eq_flatMap_toList, filterMap_dropWhile_blank, written]

theorem written_add_blank (s : Sheet) {line : String} (h : isBlankLine line = true) :
    (s.add line).written = s.written := by
  simp only [written, add, List.reverse_cons, List.filterMap_append, List.filterMap_cons,
    List.filterMap_nil, line?_of_blank ((isBlankLine_tabs s.depth line).trans h),
    List.append_nil]

theorem written_add_tight (s : Sheet) {line : String} (h : Tight line) :
    (s.add line).written = s.written ++ [⟨s.depth, line⟩] := by
  simp only [written, add, List.reverse_cons, List.filterMap_append, List.filterMap_cons,
    List.filterMap_nil, h.line?_tabs]

/-- A tight line is never taken back. -/
theorem Tight.not_blank {line : String} (h : Tight line) : isBlankLine line = false := by
  obtain ⟨c, hc, hblank⟩ := h.starts
  exact isBlankLine_eq_false_iff.2 ⟨c, List.mem_of_mem_head? hc, hblank⟩

theorem written_foldl_add (s : Sheet) {lines : List String}
    (h : ∀ line ∈ lines, isBlankLine line = true ∨ Tight line) :
    (lines.foldl add s).written =
      s.written ++ (lines.filter fun line => !isBlankLine line).map (⟨s.depth, ·⟩) := by
  induction lines generalizing s with
  | nil => simp
  | cons line rest ih =>
    rw [List.foldl_cons, ih (s.add line) fun x hx => h x (List.mem_cons_of_mem line hx),
      List.filter_cons]
    rcases h line List.mem_cons_self with hblank | htight
    · rw [written_add_blank s hblank, hblank]
      rfl
    · rw [written_add_tight s htight, htight.not_blank, List.append_assoc]
      rfl

/-- What a step adds is blank or tight. -/
theorem Step.added_cases {step : Step} (h : ∀ text ∈ step.texts, Tight text) :
    ∀ line ∈ step.added, isBlankLine line = true ∧ '\n' ∉ line.toList ∨ Tight line := by
  cases step with
  | line text => exact fun line hline => .inr (h line hline)
  | lines text =>
    intro line hline
    cases hblank : isBlankLine line with
    | false => exact .inr (h line (List.mem_filter.2 ⟨hline, by simp [hblank]⟩))
    | true =>
      obtain ⟨piece, hpiece, rfl⟩ := List.mem_map.1 hline
      rw [String.toList_ofList]
      exact .inl ⟨rfl, not_mem_of_mem_splitOn hpiece⟩
  | blank => exact List.forall_mem_singleton.2 (.inl (by decide))
  | indent => simp [Step.added]
  | dedent => simp [Step.added]
  | strip => simp [Step.added]

/-- A step adds the lines it says, at the depth of the sheet. -/
theorem written_step (s : Sheet) {step : Step} (h : ∀ text ∈ step.texts, Tight text) :
    (s.step step).written = s.written ++ step.texts.map (⟨s.depth, ·⟩) := by
  have hadded : ∀ line ∈ step.added, isBlankLine line = true ∨ Tight line := fun line hline =>
    (Step.added_cases h line hline).imp_left And.left
  cases step with
  | line text => exact written_add_tight s (h text List.mem_cons_self)
  | lines text => exact written_foldl_add s hadded
  | blank => exact (written_add_blank s (by decide)).trans (List.append_nil _).symm
  | indent => exact (List.append_nil _).symm
  | dedent => exact (List.append_nil _).symm
  | strip =>
    rw [Step.texts, List.map_nil, List.append_nil]
    exact filterMap_dropWhile_blank s.above

theorem depth_step (s : Sheet) (step : Step) : (s.step step).depth = step.after s.depth := by
  cases step with
  | lines text =>
    show ((linesOf text).foldl add s).depth = s.depth
    induction linesOf text generalizing s with
    | nil => rfl
    | cons line rest ih => exact ih (s.add line)
  | _ => rfl

/-- So a script adds its entries. -/
theorem written_run (s : Sheet) {script : Script} (h : ∀ text ∈ script.texts, Tight text) :
    (s.run script).written = s.written ++ script.entries s.depth := by
  induction script generalizing s with
  | nil => exact (List.append_nil _).symm
  | cons step rest ih =>
    obtain ⟨hstep, hrest⟩ := List.forall_mem_append.1 (by rwa [Script.texts, List.flatMap_cons] at h)
    show ((s.step step).run rest).written = _
    rw [ih (s.step step) hrest, written_step s hstep, depth_step, List.append_assoc]
    rfl

end Sheet

/-- **The lines of a script's text are those that it adds**, each at its depth. -/
theorem Code.lines_text {script : Script} (h : ∀ text ∈ script.texts, Sheet.Tight text) :
    Code.lines script.text = script.entries 0 := by
  have hsettled : ∀ line ∈ (Sheet.empty.run script).above, Sheet.Settled line := by
    intro line hline
    rcases Sheet.mem_above_run hline with hempty | ⟨step, hstep, added, hadded, depth, rfl⟩
    · cases hempty
    · have htight : ∀ text ∈ step.texts, Sheet.Tight text := fun text htext =>
        h text (List.mem_flatMap.2 ⟨step, hstep, htext⟩)
      rcases Sheet.Step.added_cases htight added hadded with ⟨hblank, hbreak⟩ | htight
      · refine .inl ⟨(Sheet.isBlankLine_tabs depth added).trans hblank, ?_⟩
        rw [String.toList_append, List.mem_append, not_or]
        exact ⟨(Sheet.plain_tabs depth).1, hbreak⟩
      · exact .inr ⟨depth, added, rfl, htight⟩
  rw [Script.text, Sheet.lines_text_eq_written hsettled, Sheet.written_run _ h]
  rfl

/-! ### Under the headings -/

namespace Code

theorem map_text_place (above lines : List CodeLine) :
    (place above lines).map (·.text) = lines.map (·.text) := by
  induction lines generalizing above with
  | nil => rfl
  | cons line rest ih => rw [place, List.map_cons, List.map_cons, ih]

/-- Lines are placed under the headings before them, wherever a text is cut. -/
theorem place_append (above first second : List CodeLine) :
    place above (first ++ second) =
      place above first ++ place (first.reverse ++ above) second := by
  induction first generalizing above with
  | nil => rfl
  | cons line rest ih =>
    rw [List.cons_append, place, ih, List.reverse_cons, List.append_assoc]
    rfl

/-- The lines above lead under some headings, for every line that is deep enough. -/
def Anchored (above : List CodeLine) (depth : Nat) (names : List String) : Prop :=
  ∀ d, depth ≤ d → around above d = names

theorem anchored_nil : Anchored [] 0 [] := fun _ _ => rfl

/-- Lines that are as deep as a line are not around it. -/
theorem around_skip {lines above : List CodeLine} {depth : Nat}
    (h : ∀ l ∈ lines, depth ≤ l.depth) : around (lines ++ above) depth = around above depth := by
  induction lines with
  | nil => rfl
  | cons line rest ih =>
    rw [List.cons_append, around, if_neg (Nat.not_lt.2 (h line List.mem_cons_self)),
      ih fun l hl => h l (List.mem_cons_of_mem line hl)]

/-- A line that is no heading changes nothing. -/
theorem Anchored.line {above : List CodeLine} {depth : Nat} {names : List String}
    (h : Anchored above depth names) {line : CodeLine} (hline : heading? line.text = none)
    (hdepth : depth ≤ line.depth) : Anchored (line :: above) depth names := by
  intro d hd
  rw [around]
  split
  · rw [h line.depth hdepth, hline]
    exact List.append_nil names
  · exact h d hd

/-- A heading takes what is deeper under it. -/
theorem Anchored.heading {above : List CodeLine} {depth : Nat} {names : List String}
    (h : Anchored above depth names) {text name : String} {kind : Kind}
    (hline : heading? text = some (kind, name)) :
    Anchored (⟨depth, text⟩ :: above) (depth + 1) (names ++ [name]) := by
  intro d hd
  have hlt : depth < d := hd
  simp only [around, hlt, if_true, h depth (Nat.le_refl depth), hline]
  rfl

/-- A line that is no heading ends what is deeper. -/
theorem Anchored.close {above inner : List CodeLine} {depth : Nat} {names : List String}
    (h : Anchored above depth names) (hinner : ∀ l ∈ inner, depth ≤ l.depth) {text : String}
    (hline : heading? text = none) :
    Anchored (⟨depth, text⟩ :: (inner ++ above)) depth names := by
  have hskip : around (inner ++ above) depth = names :=
    (around_skip hinner).trans (h depth (Nat.le_refl depth))
  intro d hd
  rw [around]
  split
  · rw [hskip, hline]
    exact List.append_nil names
  · next hlt =>
    have hdepth : d = depth := Nat.le_antisymm (Nat.not_lt.1 hlt) hd
    rw [hdepth, hskip]

/-- Lines without headings stand under the headings above them. -/
theorem Anchored.flat {above lines : List CodeLine} {depth : Nat} {names : List String}
    (h : Anchored above depth names)
    (hlines : ∀ l ∈ lines, heading? l.text = none ∧ depth ≤ l.depth) :
    place above lines = lines.map (fun l => ⟨names, l.depth, l.text⟩) ∧
      Anchored (lines.reverse ++ above) depth names := by
  induction lines generalizing above with
  | nil => exact ⟨rfl, h⟩
  | cons line rest ih =>
    obtain ⟨⟨hline, hdepth⟩, hrest⟩ := List.forall_mem_cons.1 hlines
    obtain ⟨hplace, hanchored⟩ := ih (h.line hline hdepth) hrest
    rw [place, hplace, h line.depth hdepth, List.reverse_cons, List.append_assoc]
    exact ⟨rfl, hanchored⟩

end Code
end SwiftWrap
