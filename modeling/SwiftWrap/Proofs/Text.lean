import SwiftWrap.Text.Basic
import SwiftWrap.Text.Word
import Mathlib.Data.List.TakeWhile

/-! Runs of characters of one class, and text without white space around it.

A reader that takes the longest run of a class finds exactly the run that was written, if
what follows it starts outside the class: `takeWhile_run` and `dropWhile_run`. White space
lies outside words and digits, so the runs of a line have one reading. -/
namespace SwiftWrap.Text

/-! ### Runs -/

/-- A text that is not empty and whose characters are all of one class. -/
def Run (p : Char → Bool) (cs : List Char) : Prop := cs ≠ [] ∧ ∀ c ∈ cs, p c = true

instance (p : Char → Bool) (cs : List Char) : Decidable (Run p cs) :=
  decidable_of_iff (cs ≠ [] ∧ cs.all p = true) (and_congr_right fun _ => List.all_eq_true)

/-- A text that does not go on with a character of a class. -/
def Stops (p : Char → Bool) (cs : List Char) : Prop := ∀ c ∈ cs.head?, p c = false

theorem stops_nil (p : Char → Bool) : Stops p [] := by
  intro c h
  simp at h

@[simp] theorem stops_cons {p : Char → Bool} {c : Char} {cs : List Char} :
    Stops p (c :: cs) ↔ p c = false := by
  simp [Stops]

theorem stops_dropWhile (p : Char → Bool) (cs : List Char) : Stops p (cs.dropWhile p) := by
  intro c h
  have := List.head?_dropWhile_not p cs
  simp only [Option.mem_def] at h
  rw [h] at this
  simpa using this

/-- A run of one class stops every class that has nothing in common with it. -/
theorem Run.stops {p q : Char → Bool} {cs : List Char} (h : Run p cs)
    (hpq : ∀ c, p c = true → q c = false) (rest : List Char) : Stops q (cs ++ rest) := by
  obtain ⟨hne, hall⟩ := h
  cases cs with
  | nil => exact absurd rfl hne
  | cons c cs => exact stops_cons.2 (hpq c (hall c List.mem_cons_self))

/-- The same for a run that may be empty, if what follows it stops the class too. -/
theorem stops_append {p q : Char → Bool} {cs rest : List Char} (h : ∀ c ∈ cs, p c = true)
    (hpq : ∀ c, p c = true → q c = false) (hrest : Stops q rest) : Stops q (cs ++ rest) := by
  cases cs with
  | nil => exact hrest
  | cons c cs => exact stops_cons.2 (hpq c (h c List.mem_cons_self))

theorem takeWhile_eq_nil {p : Char → Bool} {cs : List Char} (h : Stops p cs) :
    cs.takeWhile p = [] := by
  cases cs with
  | nil => rfl
  | cons c cs => simp [stops_cons.1 h]

theorem dropWhile_eq_self {p : Char → Bool} {cs : List Char} (h : Stops p cs) :
    cs.dropWhile p = cs := by
  cases cs with
  | nil => rfl
  | cons c cs => simp [stops_cons.1 h]

theorem takeWhile_run {p : Char → Bool} {cs rest : List Char} (h : ∀ c ∈ cs, p c = true)
    (hrest : Stops p rest) : (cs ++ rest).takeWhile p = cs := by
  rw [List.takeWhile_append_of_pos h, takeWhile_eq_nil hrest, List.append_nil]

theorem dropWhile_run {p : Char → Bool} {cs rest : List Char} (h : ∀ c ∈ cs, p c = true)
    (hrest : Stops p rest) : (cs ++ rest).dropWhile p = rest := by
  rw [List.dropWhile_append_of_pos h, dropWhile_eq_self hrest]

/-! ### Classes of characters -/

/-- The code points in the ranges, one by one. -/
def Ranges.points (ranges : Ranges) : List Nat :=
  ranges.flatMap fun (first, last) => List.range' first (last + 1 - first)

theorem Ranges.mem_points {ranges : Ranges} {n : Nat} (h : ranges.contains n = true) :
    n ∈ ranges.points := by
  induction ranges with
  | nil => simp [Ranges.contains] at h
  | cons range rest ih =>
    obtain ⟨first, last⟩ := range
    simp only [points, List.flatMap_cons, List.mem_append, List.mem_range'_1]
    rw [Ranges.contains] at h
    split at h
    · simp at h
    · rcases Bool.or_eq_true_iff.1 h with hn | hn
      · left
        have := of_decide_eq_true hn
        omega
      · exact .inr (ih hn)

/-- White space is in no word and in no number. -/
theorem blank_outside {c : Char} (h : isBlank c = true) : isWord c = false ∧ isDigit c = false := by
  have hall : ∀ n ∈ blankRanges.points,
      wordRanges.contains n = false ∧ digitRanges.contains n = false := by
    decide +kernel
  exact hall c.toNat (Ranges.mem_points h)

theorem word_not_blank (c : Char) (h : isWord c = true) : isBlank c = false := by
  cases hb : isBlank c
  · rfl
  · simp [(blank_outside hb).1] at h

theorem digit_not_blank (c : Char) (h : isDigit c = true) : isBlank c = false := by
  cases hb : isBlank c
  · rfl
  · simp [(blank_outside hb).2] at h

/-! ### Trimming -/

theorem trimStart_blank {gap cs : List Char} (h : ∀ c ∈ gap, isBlank c = true) :
    trimStart (gap ++ cs) = trimStart cs :=
  List.dropWhile_append_of_pos h

theorem trimStart_eq_self {cs : List Char} (h : Stops isBlank cs) : trimStart cs = cs :=
  dropWhile_eq_self h

theorem trimEnd_blank {gap cs : List Char} (h : ∀ c ∈ gap, isBlank c = true) :
    trimEnd (cs ++ gap) = trimEnd cs := by
  unfold trimEnd
  rw [List.reverse_append, List.dropWhile_append_of_pos (by simpa using h)]

theorem trimEnd_append_of_last {cs : List Char} {c : Char} (h : isBlank c = false) :
    trimEnd (cs ++ [c]) = cs ++ [c] := by
  simp [trimEnd, h]

theorem exists_trimEnd (cs : List Char) :
    ∃ gap, cs = trimEnd cs ++ gap ∧ ∀ c ∈ gap, isBlank c = true := by
  refine ⟨(cs.reverse.takeWhile isBlank).reverse, ?_, fun c hc => ?_⟩
  · rw [trimEnd, ← List.reverse_append, List.takeWhile_append_dropWhile, List.reverse_reverse]
  · exact List.mem_takeWhile_imp (List.mem_reverse.1 hc)

theorem last_trimEnd {cs : List Char} {c : Char} (h : c ∈ (trimEnd cs).getLast?) :
    isBlank c = false := by
  rw [trimEnd, List.getLast?_reverse] at h
  exact stops_dropWhile isBlank _ c h

/-- White space at the end is lost behind anything else. -/
theorem trimEnd_append {cs : List Char} (h : ∃ c ∈ cs, isBlank c = false) (front : List Char) :
    trimEnd (front ++ cs) = front ++ trimEnd cs := by
  obtain ⟨gap, hcs, hgap⟩ := exists_trimEnd cs
  rcases List.eq_nil_or_concat (trimEnd cs) with hnil | ⟨body, last, hlast⟩
  · rw [hnil, List.nil_append] at hcs
    obtain ⟨c, hc, hink⟩ := h
    rw [hgap c (hcs ▸ hc)] at hink
    cases hink
  · rw [List.concat_eq_append] at hlast
    have hmem : last ∈ (trimEnd cs).getLast? := by simp [hlast]
    have hend : isBlank last = false := last_trimEnd hmem
    calc trimEnd (front ++ cs)
      _ = trimEnd (front ++ trimEnd cs ++ gap) := by rw [List.append_assoc, ← hcs]
      _ = trimEnd (front ++ body ++ [last]) := by rw [trimEnd_blank hgap, hlast, List.append_assoc]
      _ = front ++ trimEnd cs := by rw [trimEnd_append_of_last hend, hlast, List.append_assoc]

/-- What trimming leaves, and the white space that it takes away. -/
theorem exists_trim (cs : List Char) : ∃ gap gap', cs = gap ++ trim cs ++ gap' ∧
    (∀ c ∈ gap, isBlank c = true) ∧ ∀ c ∈ gap', isBlank c = true := by
  obtain ⟨gap', hgap', hblank'⟩ := exists_trimEnd (trimStart cs)
  refine ⟨cs.takeWhile isBlank, gap', ?_, fun _ => List.mem_takeWhile_imp, hblank'⟩
  rw [List.append_assoc, trim, ← hgap', trimStart, List.takeWhile_append_dropWhile]

theorem trim_eq_nil_iff {cs : List Char} : trim cs = [] ↔ ∀ c ∈ cs, isBlank c = true := by
  constructor
  · intro h
    obtain ⟨gap, gap', hcs, hgap, hgap'⟩ := exists_trim cs
    rw [h, List.append_nil] at hcs
    intro c hc
    rw [hcs] at hc
    rcases List.mem_append.1 hc with hc | hc
    · exact hgap c hc
    · exact hgap' c hc
  · intro h
    have hstart : trimStart (cs ++ []) = [] := trimStart_blank h
    rw [List.append_nil] at hstart
    rw [trim, hstart]
    rfl

/-- White space around a text is lost in trimming. -/
theorem trim_blank {gap cs gap' : List Char} (h : ∀ c ∈ gap, isBlank c = true)
    (h' : ∀ c ∈ gap', isBlank c = true) : trim (gap ++ cs ++ gap') = trim cs := by
  rw [List.append_assoc, trim, trimStart_blank h, trim]
  by_cases hcs : ∀ c ∈ cs, isBlank c = true
  · have hboth : trim (cs ++ gap') = trim cs := by
      rw [trim_eq_nil_iff.2 hcs, trim_eq_nil_iff]
      intro c hc
      rcases List.mem_append.1 hc with hc | hc
      · exact hcs c hc
      · exact h' c hc
    exact hboth
  · have hstart : trimStart (cs ++ gap') = trimStart cs ++ gap' := by
      rw [trimStart, List.dropWhile_append, if_neg]
      · rfl
      · rw [List.isEmpty_iff, List.dropWhile_eq_nil_iff]
        exact hcs
    rw [hstart, trimEnd_blank h']

/-- A text with a character other than white space at both ends is trimmed already. -/
theorem trim_eq_self {cs : List Char} {c : Char} (hstart : Stops isBlank (cs ++ [c]))
    (hend : isBlank c = false) : trim (cs ++ [c]) = cs ++ [c] := by
  rw [trim, trimStart_eq_self hstart, trimEnd_append_of_last hend]

/-- A trimmed text does not start with white space. -/
theorem stops_trim (cs : List Char) : Stops isBlank (trim cs) := by
  have hstart : Stops isBlank (trimStart cs) := stops_dropWhile isBlank cs
  have hbegin : trim cs <+: trimStart cs := by
    have := (List.dropWhile_suffix isBlank (l := (trimStart cs).reverse)).reverse
    rwa [List.reverse_reverse] at this
  obtain ⟨rest, hrest⟩ := hbegin
  cases htrim : trim cs with
  | nil => exact stops_nil isBlank
  | cons c tail =>
    rw [← hrest, htrim] at hstart
    exact stops_cons.2 (stops_cons.1 hstart)

/-- A trimmed text does not end with white space. -/
theorem last_trim {cs : List Char} {c : Char} (h : c ∈ (trim cs).getLast?) : isBlank c = false :=
  last_trimEnd h

theorem trim_trim (cs : List Char) : trim (trim cs) = trim cs := by
  rcases List.eq_nil_or_concat (trim cs) with hnil | ⟨front, last, hlast⟩
  · rw [hnil]
    rfl
  · rw [List.concat_eq_append] at hlast
    have hstart := stops_trim cs
    have hend : isBlank last = false := @last_trim cs last (by rw [hlast]; simp)
    rw [hlast] at hstart ⊢
    exact trim_eq_self hstart hend

theorem trim_part (cs : List Char) : trim cs <:+: cs := by
  obtain ⟨gap, gap', hcs, -⟩ := exists_trim cs
  exact ⟨gap, gap', hcs.symm⟩

theorem mem_of_mem_trim {cs : List Char} {c : Char} (h : c ∈ trim cs) : c ∈ cs :=
  (trim_part cs).subset h

/-- Trimming loses white space only. -/
theorem count_trim {c : Char} (hc : isBlank c = false) (cs : List Char) :
    (trim cs).count c = cs.count c := by
  obtain ⟨gap, gap', hcs, hgap, hgap'⟩ := exists_trim cs
  have hblank : ∀ {cs : List Char}, (∀ x ∈ cs, isBlank x = true) → cs.count c = 0 := fun h =>
    List.count_eq_zero.2 fun hmem => by simp [h c hmem] at hc
  calc (trim cs).count c
    _ = (gap ++ trim cs ++ gap').count c := by
      rw [List.count_append, List.count_append, hblank hgap, hblank hgap', Nat.zero_add,
        Nat.add_zero]
    _ = cs.count c := by rw [← hcs]

/-! ### Cutting -/

theorem after?_eq_some_iff {start cs rest : List Char} :
    after? start cs = some rest ↔ cs = start ++ rest := by
  induction start generalizing cs with
  | nil => simp [after?, eq_comm]
  | cons p ps ih =>
    cases cs with
    | nil => simp [after?]
    | cons c cs =>
      rw [after?]
      split
      · next h => simp [ih, h]
      · next h => simp [Ne.symm h]

/-- What stops at the second list stops there in both. -/
theorem span_append (first : List α) {second : List α} {p : α → Bool}
    (h : ∀ x ∈ second.head?, p x = false) :
    (first ++ second).takeWhile p = first.takeWhile p ∧
      (first ++ second).dropWhile p = first.dropWhile p ++ second := by
  induction first with
  | nil =>
    cases second with
    | nil => exact ⟨rfl, rfl⟩
    | cons x rest => simp [h x rfl]
  | cons x rest ih =>
    rw [List.cons_append, List.takeWhile_cons, List.takeWhile_cons, List.dropWhile_cons,
      List.dropWhile_cons]
    split
    · exact ⟨congrArg _ ih.1, ih.2⟩
    · exact ⟨rfl, rfl⟩

/-- A character outside the class ends what is taken. -/
theorem takeWhile_append_cons {p : Char → Bool} {c : Char} (h : p c = false)
    (cs rest : List Char) : (cs ++ c :: rest).takeWhile p = cs.takeWhile p :=
  (span_append cs (stops_cons.2 h)).1

theorem dropWhile_append_cons {p : Char → Bool} {c : Char} (h : p c = false)
    (cs rest : List Char) :
    (cs ++ c :: rest).dropWhile p = cs.dropWhile p ++ c :: rest :=
  (span_append cs (stops_cons.2 h)).2

theorem eq_of_beforeLast {mark : Char} {cs before : List Char}
    (h : beforeLast mark cs = some before) : ∃ rest, cs = before ++ mark :: rest := by
  induction cs generalizing before with
  | nil => simp [beforeLast] at h
  | cons c cs ih =>
    rw [beforeLast] at h
    split at h
    · next before' hbefore =>
      obtain ⟨rest, rfl⟩ := ih hbefore
      cases h
      exact ⟨rest, rfl⟩
    · split at h
      · next hc =>
        cases h
        exact ⟨cs, by rw [hc]; rfl⟩
      · simp at h

/-- No occurrence of the mark stands behind the last one. -/
theorem exists_beforeLast (mark : Char) (cs rest : List Char) :
    ∃ before, beforeLast mark (cs ++ mark :: rest) = some before ∧ cs.length ≤ before.length := by
  induction cs with
  | nil =>
    rw [List.nil_append, beforeLast]
    split
    · next before _ => exact ⟨mark :: before, rfl, Nat.zero_le _⟩
    · exact ⟨[], by rw [if_pos rfl], Nat.le_refl _⟩
  | cons c cs ih =>
    obtain ⟨before, hbefore, hle⟩ := ih
    refine ⟨c :: before, ?_, Nat.succ_le_succ hle⟩
    rw [List.cons_append, beforeLast, hbefore]

theorem beforeLast_concat (mark : Char) (cs : List Char) :
    beforeLast mark (cs ++ [mark]) = some cs := by
  induction cs with
  | nil => simp [beforeLast]
  | cons c cs ih => rw [List.cons_append, beforeLast, ih]

theorem mem_intercalate {sep : List Char} {pieces : List (List Char)} {c : Char}
    (h : c ∈ sep.intercalate pieces) : c ∈ sep ∨ ∃ cs ∈ pieces, c ∈ cs := by
  induction pieces with
  | nil => simp at h
  | cons cs rest ih =>
    cases rest with
    | nil =>
      rw [List.intercalate_singleton] at h
      exact .inr ⟨cs, List.mem_cons_self, h⟩
    | cons next rest =>
      rw [List.intercalate_cons_cons, List.append_assoc] at h
      rcases List.mem_append.1 h with h | h
      · exact .inr ⟨cs, List.mem_cons_self, h⟩
      · rcases List.mem_append.1 h with h | h
        · exact .inl h
        · exact (ih h).imp_right fun ⟨x, hx, hc⟩ => ⟨x, List.mem_cons_of_mem cs hx, hc⟩

/-- Joined pieces end with the last of them. -/
theorem suffix_intercalate (sep : List Char) (front : List (List Char)) (last : List Char) :
    last <:+ sep.intercalate (front ++ [last]) := by
  induction front with
  | nil => exact (List.intercalate_singleton ..) ▸ List.suffix_rfl
  | cons cs rest ih =>
    have hcons : sep.intercalate (cs :: (rest ++ [last])) =
        cs ++ sep ++ sep.intercalate (rest ++ [last]) := by
      cases rest with
      | nil => exact List.intercalate_cons_cons ..
      | cons next rest => exact List.intercalate_cons_cons ..
    rw [List.cons_append, hcons]
    exact ih.trans (List.suffix_append ..)

/-- Joining adds nothing but marks. -/
theorem count_intercalate {mark c : Char} (h : c ≠ mark) (pieces : List (List Char)) :
    ([mark].intercalate pieces).count c = pieces.flatten.count c := by
  induction pieces with
  | nil => rfl
  | cons cs rest ih =>
    cases rest with
    | nil => simp [List.intercalate_singleton]
    | cons next rest =>
      have hmark : [mark].count c = 0 := List.count_eq_zero.2 fun hc => h (List.mem_singleton.1 hc)
      rw [List.intercalate_cons_cons, List.count_append, List.count_append, hmark, ih,
        @List.flatten_cons _ cs, List.count_append, Nat.add_zero]

theorem not_mem_of_mem_splitOn {mark : Char} {cs piece : List Char}
    (h : piece ∈ List.splitOn mark cs) : mark ∉ piece := by
  induction cs generalizing piece with
  | nil => simp_all
  | cons c rest ih =>
    rw [List.splitOn_cons_eq_if_modifyHead] at h
    split at h
    · rcases List.mem_cons.1 h with rfl | h
      · simp
      · exact ih h
    · next hc =>
      cases hsplit : List.splitOn mark rest with
      | nil => simp [hsplit] at h
      | cons first pieces =>
        rw [hsplit] at h ih
        rcases List.mem_cons.1 h with rfl | h
        · rw [List.mem_cons, not_or]
          exact ⟨fun heq => hc (by simp [heq]), ih List.mem_cons_self⟩
        · exact ih (List.mem_cons_of_mem first h)

/-- The pieces are what stands between the marks. -/
theorem flatten_splitOn_sublist (mark : Char) (cs : List Char) :
    (List.splitOn mark cs).flatten.Sublist cs := by
  induction cs with
  | nil => exact .slnil
  | cons c rest ih =>
    rw [List.splitOn_cons_eq_if_modifyHead]
    split
    · exact ih.cons c
    · cases hsplit : List.splitOn mark rest with
      | nil => exact List.nil_sublist _
      | cons piece pieces =>
        rw [hsplit] at ih
        exact ih.cons_cons c

/-- Pieces joined by a mark, with one more mark at the end, are split into the pieces again. -/
theorem splitOn_intercalate_mark {mark : Char} {pieces : List (List Char)} (hne : pieces ≠ [])
    (h : ∀ cs ∈ pieces, mark ∉ cs) :
    List.splitOn mark ([mark].intercalate pieces ++ [mark]) = pieces ++ [[]] := by
  rw [List.splitOn_append_cons_self, List.splitOn_intercalate mark h hne, List.splitOn_nil]

/-- Pieces joined by a mark, with one more mark at the end, are split into the pieces again, and
into empty ones, which yield nothing. -/
theorem flatMap_splitOn_intercalate {mark : Char} {yields : List Char → List α}
    (hnil : yields [] = []) {pieces : List (List Char)} (h : ∀ cs ∈ pieces, mark ∉ cs) :
    (List.splitOn mark ([mark].intercalate pieces ++ [mark])).flatMap yields =
      pieces.flatMap yields := by
  by_cases hne : pieces = []
  · simp [hne, List.splitOn_cons_eq_if_modifyHead, hnil]
  · rw [splitOn_intercalate_mark hne h, List.flatMap_append, List.flatMap_singleton, hnil,
      List.append_nil]

theorem cutAtPair_eq_none_iff {a b : Char} {cs : List Char} :
    cutAtPair a b cs = none ↔ ¬[a, b] <:+: cs := by
  induction cs with
  | nil => simp [cutAtPair]
  | cons c rest ih =>
    cases rest with
    | nil => simp [cutAtPair, List.infix_cons_iff]
    | cons d rest =>
      rw [cutAtPair, List.infix_cons_iff, List.cons_prefix_cons, List.cons_prefix_cons, not_or]
      split
      · next h => simp [h]
      · next h =>
        rw [Option.map_eq_none_iff, ih, and_iff_right]
        rintro ⟨rfl, rfl, -⟩
        exact h ⟨rfl, rfl⟩

/-- What is cut off is cut off at the first pair. -/
theorem not_pair_of_cutAtPair {a b : Char} {cs before after : List Char}
    (h : cutAtPair a b cs = some (before, after)) : ¬[a, b] <:+: before := by
  induction cs generalizing before with
  | nil => simp [cutAtPair] at h
  | cons c rest ih =>
    cases rest with
    | nil => simp [cutAtPair] at h
    | cons d rest =>
      rw [cutAtPair] at h
      split at h
      · cases h
        simp
      · next hne =>
        obtain ⟨⟨before', after'⟩, hcut, heq⟩ := Option.map_eq_some_iff.1 h
        cases heq
        rw [List.infix_cons_iff, not_or]
        refine ⟨fun hstart => hne ?_, ih hcut⟩
        obtain ⟨rfl, hnext⟩ := List.cons_prefix_cons.1 hstart
        have hrest := eq_of_cutAtPair hcut
        cases before' with
        | nil => simp at hnext
        | cons e tail =>
          obtain ⟨rfl, -⟩ := List.cons_prefix_cons.1 hnext
          exact ⟨rfl, (List.cons_eq_cons.1 hrest).1⟩

/-- A pair does not go across a character that is not in it. -/
theorem pair_infix_of_append_cons {a b c : Char} {first second : List Char} (ha : c ≠ a)
    (hb : c ≠ b) (h : [a, b] <:+: first ++ c :: second) :
    [a, b] <:+: first ∨ [a, b] <:+: second := by
  induction first with
  | nil =>
    rcases List.infix_cons_iff.1 h with h | h
    · exact absurd (List.cons_prefix_cons.1 h).1.symm ha
    · exact .inr h
  | cons d rest ih =>
    rcases List.infix_cons_iff.1 h with h | h
    · obtain ⟨rfl, hstart⟩ := List.cons_prefix_cons.1 h
      cases rest with
      | nil => exact absurd (List.cons_prefix_cons.1 hstart).1.symm hb
      | cons e rest =>
        obtain ⟨rfl, -⟩ := List.cons_prefix_cons.1 hstart
        exact .inl ⟨[], rest, rfl⟩
    · exact (ih h).imp_left fun h => h.trans (List.suffix_cons ..).isInfix

end SwiftWrap.Text
