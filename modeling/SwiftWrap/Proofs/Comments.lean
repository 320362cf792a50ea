import SwiftWrap.Proofs.Numbering
import Mathlib.Data.List.Infix

/-! Comments, read once from left to right.

A reader of a source meets code, comments up to the end of a row, and comments between marks
(`Source.pieces`). In a comment nothing else begins. The source is made into lines in another
way: comments between marks go first, wherever their marks stand, and then each row is cut at two
slashes.

The two agree as long as the first pass stays inside the comments of the reader. A comment up to
the end of a row is `Contained` if that pass leaves its two slashes and takes nothing away behind
it. `Source.comments_hidden` says that then the lines of code are those of the reader, and that
a comment that is not contained does not hide itself alone. `Source.comments_hidden_fails` has such
comments: one hides code, and one is shown. -/
namespace SwiftWrap
open Text

/-- A piece of a source. -/
inductive Piece where
  | code (c : Char)
  /-- A comment up to the end of its row, without its two slashes. -/
  | tail (text : List Char)
  /-- A comment between two marks. -/
  | block (text : List Char)
deriving DecidableEq

namespace Piece

/-- The piece as it is written. -/
def source : Piece → List Char
  | code c => [c]
  | tail text => '/' :: '/' :: text
  | block text => '/' :: '*' :: text ++ ['*', '/']

/-- What is left of a piece where comments are hidden: of a comment, the line breaks in it. -/
def shown : Piece → List Char
  | code c => [c]
  | tail _ => []
  | block text => text.filter (· = '\n')

end Piece

namespace Source

/-- The pieces of a source, from left to right. The mark that opens a comment is code if no mark
closes it. -/
def pieces : List Char → List Piece
  | [] => []
  | '/' :: '/' :: rest =>
    .tail (rest.takeWhile (· ≠ '\n')) :: pieces (rest.dropWhile (· ≠ '\n'))
  | '/' :: '*' :: rest =>
    match _h : cutAtPair '*' '/' rest with
    | some (inside, after) => .block inside :: pieces after
    | none => .code '/' :: .code '*' :: pieces rest
  | c :: rest => .code c :: pieces rest
termination_by cs => cs.length
decreasing_by
  · exact Nat.lt_succ_of_le (Nat.le_succ_of_le (List.dropWhile_sublist _).length_le)
  · simp [eq_of_cutAtPair _h]
    omega
  · exact Nat.lt_succ_of_lt (Nat.lt_succ_self _)
  · exact Nat.lt_succ_self _

/-- The lines of code that are left where the comments of a source are hidden. -/
def shownLines (text : String) : List Line :=
  numbered (rows ((pieces text.toList).flatMap Piece.shown))

/-- Whether a comment between marks is open at the end of a text. -/
def leavesOpen : List Char → Bool
  | [] => false
  | '/' :: '*' :: rest =>
    match _h : cutAtPair '*' '/' rest with
    | some (_, after) => leavesOpen after
    | none => true
  | _ :: rest => leavesOpen rest
termination_by cs => cs.length
decreasing_by
  · simp [eq_of_cutAtPair _h]
    omega
  · exact Nat.lt_succ_self _

/-- A comment up to the end of its row out of which nothing is taken that matters: its slashes
stay where comments between marks go, and if such a comment is open at its end, nothing closes it
in what comes after. -/
structure Contained (tail after : List Char) : Prop where
  slashes : ['/', '/'] <+: withoutBlocks ('/' :: '/' :: tail)
  closed : leavesOpen ('/' :: '/' :: tail) = true → ¬['*', '/'] <:+: after

instance (tail after : List Char) : Decidable (Contained tail after) :=
  decidable_of_iff (['/', '/'] <+: withoutBlocks ('/' :: '/' :: tail) ∧
      (leavesOpen ('/' :: '/' :: tail) = true → ¬['*', '/'] <:+: after))
    ⟨fun h => ⟨h.1, h.2⟩, fun h => ⟨h.slashes, h.closed⟩⟩

/-- Each comment up to the end of its row is contained. -/
def AllContained : List Piece → Prop
  | [] => True
  | .tail text :: after => Contained text (after.flatMap Piece.source) ∧ AllContained after
  | _ :: after => AllContained after

instance decidableAllContained : (pieces : List Piece) → Decidable (AllContained pieces)
  | [] => .isTrue trivial
  | .tail text :: after =>
    have := decidableAllContained after
    inferInstanceAs (Decidable (Contained text (after.flatMap Piece.source) ∧ AllContained after))
  | .code _ :: after => decidableAllContained after
  | .block _ :: after => decidableAllContained after

/-! ### Pieces -/

/-- The pieces of a source make it up. -/
theorem source_pieces (cs : List Char) : (pieces cs).flatMap Piece.source = cs := by
  fun_induction pieces cs with
  | case1 => rfl
  | case2 rest ih =>
    rw [List.flatMap_cons, ih, Piece.source]
    simp
  | case3 rest inside after h ih =>
    rw [List.flatMap_cons, ih, Piece.source, eq_of_cutAtPair h]
    simp
  | case4 rest h ih => rw [List.flatMap_cons, List.flatMap_cons, ih]; rfl
  | case5 c rest _ _ ih => rw [List.flatMap_cons, ih]; rfl

/-! ### Taking out blocks part by part -/

theorem cutAtPair_append_of_some {a b : Char} {cs before after : List Char}
    (h : cutAtPair a b cs = some (before, after)) (more : List Char) :
    cutAtPair a b (cs ++ more) = some (before, after ++ more) := by
  induction cs generalizing before with
  | nil => simp [cutAtPair] at h
  | cons c rest ih =>
    cases rest with
    | nil => simp [cutAtPair] at h
    | cons d rest =>
      rw [cutAtPair] at h
      rw [List.cons_append, List.cons_append, cutAtPair]
      split at h
      · next hpair =>
        cases h
        rw [if_pos hpair]
      · next hpair =>
        obtain ⟨⟨before', after'⟩, hcut, heq⟩ := Option.map_eq_some_iff.1 h
        cases heq
        rw [if_neg hpair, ← List.cons_append, ih hcut]
        rfl

/-- A pair behind a character that is not in it is where a text without pairs is cut. -/
theorem cutAtPair_append_of_none {a b m : Char} (ha : m ≠ a) (hb : m ≠ b) {cs : List Char}
    (h : cutAtPair a b cs = none) (more : List Char) :
    cutAtPair a b (cs ++ m :: a :: b :: more) = some (cs ++ [m], more) := by
  induction cs with
  | nil => simp [cutAtPair, ha]
  | cons c rest ih =>
    cases rest with
    | nil => simp [cutAtPair, ha, hb]
    | cons d rest =>
      rw [cutAtPair] at h
      split at h
      · cases h
      · next hpair =>
        rw [List.cons_append, List.cons_append, cutAtPair, if_neg hpair, ← List.cons_append,
          ih (Option.map_eq_none_iff.1 h)]
        rfl

theorem withoutBlocks_nil : withoutBlocks [] = [] := by rw [withoutBlocks]

theorem withoutBlocks_cons {c : Char} {cs : List Char}
    (h : ∀ rest, c = '/' → cs = '*' :: rest → False) :
    withoutBlocks (c :: cs) = c :: withoutBlocks cs := by
  rw [withoutBlocks]
  exact h

theorem withoutBlocks_block {rest inside after : List Char}
    (h : cutAtPair '*' '/' rest = some (inside, after)) :
    withoutBlocks ('/' :: '*' :: rest) = inside.filter (· = '\n') ++ withoutBlocks after := by
  rw [withoutBlocks]
  split
  · next heq =>
    rw [h] at heq
    cases heq
    rfl
  · next heq =>
    rw [h] at heq
    cases heq

theorem withoutBlocks_open {rest : List Char} (h : cutAtPair '*' '/' rest = none) :
    withoutBlocks ('/' :: '*' :: rest) = '/' :: '*' :: rest := by
  rw [withoutBlocks]
  split
  · next heq =>
    rw [h] at heq
    cases heq
  · rfl

theorem withoutBlocks_of_not_closed {cs : List Char} (h : ¬['*', '/'] <:+: cs) :
    withoutBlocks cs = cs := by
  refine withoutBlocks_eq_self fun hcomment => ?_
  obtain ⟨inside, hinside⟩ := hcomment
  exact h (List.IsInfix.trans ⟨'/' :: '*' :: inside, [], by simp⟩ hinside)

theorem break_not_mem_withoutBlocks {cs : List Char} (h : '\n' ∉ cs) : '\n' ∉ withoutBlocks cs :=
  fun hmem => h ((withoutBlocks_sublist cs).subset hmem)

theorem filter_breaks_eq_nil {cs : List Char} (h : '\n' ∉ cs) : cs.filter (· = '\n') = [] :=
  List.filter_eq_nil_iff.2 fun _ hc heq => h (of_decide_eq_true heq ▸ hc)

/-- No mark stands across the beginning of a row. -/
theorem no_mark_across {c : Char} {first second : List Char}
    (h : ∀ rest, c = '/' → first = '*' :: rest → False) (hsecond : Stops (· ≠ '\n') second) :
    ∀ rest, c = '/' → first ++ second = '*' :: rest → False := by
  intro rest hc heq
  cases first with
  | nil =>
    rw [List.nil_append] at heq
    rw [heq, stops_cons] at hsecond
    cases hsecond
  | cons d first =>
    obtain ⟨rfl, -⟩ := List.cons.inj heq
    exact h first hc rfl

/-- **Texts are taken for themselves**, if no comment that is open in one is closed in the next. -/
theorem withoutBlocks_append {first second : List Char} (hsecond : Stops (· ≠ '\n') second)
    (hclosed : leavesOpen first = true → ¬['*', '/'] <:+: second) :
    withoutBlocks (first ++ second) = withoutBlocks first ++ withoutBlocks second := by
  fun_induction leavesOpen first with
  | case1 => rw [List.nil_append, withoutBlocks_nil, List.nil_append]
  | case2 rest inside after hcut ih =>
    rw [List.cons_append, List.cons_append,
      withoutBlocks_block (cutAtPair_append_of_some hcut second), withoutBlocks_block hcut,
      ih hclosed, List.append_assoc]
  | case3 rest hcut =>
    -- No mark closes the comment: none before the row break, none across it, none behind it.
    have hall : cutAtPair '*' '/' (rest ++ second) = none := by
      rw [cutAtPair_eq_none_iff] at hcut ⊢
      cases second with
      | nil => rwa [List.append_nil]
      | cons c second =>
        have hc : c = '\n' := by simpa using hsecond
        subst hc
        intro hpair
        rcases pair_infix_of_append_cons (by decide) (by decide) hpair with hrest | hsecond
        · exact hcut hrest
        · exact hclosed rfl (hsecond.trans (List.suffix_cons ..).isInfix)
    rw [List.cons_append, List.cons_append, withoutBlocks_open hall, withoutBlocks_open hcut,
      withoutBlocks_of_not_closed (hclosed rfl), List.cons_append, List.cons_append]
  | case4 c rest hne ih =>
    rw [List.cons_append, withoutBlocks_cons (no_mark_across hne hsecond), withoutBlocks_cons hne,
      ih hclosed, List.cons_append]

/-- A comment that is open at the end of a row goes on to the mark that closes it. -/
theorem exists_withoutBlocks_of_open {cs : List Char} (h : leavesOpen cs = true)
    (hcs : '\n' ∉ cs) : ∃ left, '\n' ∉ left ∧ ∀ rest,
      withoutBlocks (cs ++ '\n' :: '*' :: '/' :: rest) = left ++ '\n' :: withoutBlocks rest := by
  fun_induction leavesOpen cs with
  | case1 => cases h
  | case2 rest inside after hcut ih =>
    have hrest : '\n' ∉ rest := fun hmem => hcs (by simp [hmem])
    rw [eq_of_cutAtPair hcut] at hrest
    have hinside : inside.filter (· = '\n') = [] :=
      filter_breaks_eq_nil fun hmem => hrest (List.mem_append_left _ hmem)
    obtain ⟨left, hleft, heq⟩ := ih h fun hmem => hrest (by simp [hmem])
    refine ⟨left, hleft, fun more => ?_⟩
    rw [List.cons_append, List.cons_append,
      withoutBlocks_block (cutAtPair_append_of_some hcut _), hinside, List.nil_append, heq]
  | case3 rest hcut =>
    have hrest : rest.filter (· = '\n') = [] :=
      filter_breaks_eq_nil fun hmem => hcs (by simp [hmem])
    refine ⟨[], by simp, fun more => ?_⟩
    rw [List.cons_append, List.cons_append,
      withoutBlocks_block (cutAtPair_append_of_none (by decide) (by decide) hcut more),
      List.filter_append, hrest]
    rfl
  | case4 c rest hne ih =>
    obtain ⟨hc, hrest⟩ := List.ne_and_not_mem_of_not_mem_cons hcs
    obtain ⟨left, hleft, heq⟩ := ih h hrest
    refine ⟨c :: left, List.not_mem_cons_of_ne_of_not_mem hc hleft, fun more => ?_⟩
    rw [List.cons_append, withoutBlocks_cons (no_mark_across hne (by simp)), heq, List.cons_append]

theorem leavesOpen_of_no_mark {cs : List Char} (h : ¬['/', '*'] <:+: cs) :
    leavesOpen cs = false := by
  fun_induction leavesOpen cs with
  | case1 => rfl
  | case2 rest => exact absurd ⟨[], rest, rfl⟩ h
  | case3 rest => exact absurd ⟨[], rest, rfl⟩ h
  | case4 c rest _ ih => exact ih fun hmark => h (hmark.trans (List.suffix_cons ..).isInfix)

/-- A comment in which no mark opens another one is contained. -/
theorem contained_of_no_mark {tail : List Char} (h : ¬['/', '*'] <:+: '/' :: '/' :: tail)
    (after : List Char) : Contained tail after where
  slashes := by
    have hself : withoutBlocks ('/' :: '/' :: tail) = '/' :: '/' :: tail :=
      withoutBlocks_eq_self fun hcomment => by
        obtain ⟨inside, hinside⟩ := hcomment
        exact h (List.IsInfix.trans ⟨[], inside ++ ['*', '/'], by simp⟩ hinside)
    rw [hself]
    exact ⟨tail, rfl⟩
  closed hopen := by
    rw [leavesOpen_of_no_mark h] at hopen
    cases hopen

/-! ### Rows cut at two slashes -/

theorem withoutTail_cons {c : Char} {cs : List Char} (h : c = '/' → cs.head? ≠ some '/') :
    withoutTail (c :: cs) = c :: withoutTail cs := by
  cases cs with
  | nil => simp [withoutTail, cutAtPair]
  | cons d cs =>
    have hpair : ¬(c = '/' ∧ d = '/') := fun hboth => h hboth.1 (by rw [hboth.2]; rfl)
    rw [withoutTail, cutAtPair, if_neg hpair, withoutTail]
    cases cutAtPair '/' '/' (d :: cs) <;> rfl

theorem withoutTail_slashes {cs : List Char} (h : ['/', '/'] <+: cs) : withoutTail cs = [] := by
  obtain ⟨rest, rfl⟩ := h
  rfl

theorem rows_break (cs : List Char) : rows ('\n' :: cs) = [] :: rows cs := by
  rw [rows, List.splitOn_cons_eq_if_modifyHead, if_pos (beq_self_eq_true _), ← rows]

theorem rows_cons {c : Char} (hc : c ≠ '\n') (cs : List Char) :
    rows (c :: cs) = (rows cs).modifyHead (c :: ·) := by
  rw [rows, List.splitOn_cons_eq_if_modifyHead, if_neg (by simpa using hc), ← rows]

/-- A text begins with its first row. -/
theorem begins_of_rows {cs row : List Char} {more : List (List Char)} (h : rows cs = row :: more) :
    row <+: cs := by
  induction cs generalizing row more with
  | nil =>
    cases h
    exact List.prefix_rfl
  | cons c cs ih =>
    by_cases hc : c = '\n'
    · rw [hc, rows_break] at h
      cases h
      exact List.nil_prefix
    · rw [rows_cons hc] at h
      cases hrest : rows cs with
      | nil =>
        rw [hrest] at h
        cases h
      | cons first rest =>
        rw [hrest] at h
        cases h
        exact List.cons_prefix_cons.2 ⟨rfl, ih hrest⟩

/-- A character in front of the first row. -/
theorem map_rows_cons {c : Char} {cs : List Char} (hc : c ≠ '\n')
    (h : c = '/' → cs.head? ≠ some '/') :
    (rows (c :: cs)).map withoutTail = ((rows cs).map withoutTail).modifyHead (c :: ·) := by
  rw [rows_cons hc]
  cases hrows : rows cs with
  | nil => rfl
  | cons row more =>
    rw [List.modifyHead_cons, List.map_cons, List.map_cons, List.modifyHead_cons, withoutTail_cons]
    intro hslash hrow
    obtain ⟨rest, rfl⟩ := begins_of_rows hrows
    refine h hslash ?_
    rw [List.head?_append, hrow]
    rfl

/-- Empty rows in front. -/
theorem rows_breaks (inside cs : List Char) :
    rows (inside.filter (· = '\n') ++ cs) =
      List.replicate (inside.count '\n') [] ++ rows cs := by
  induction inside with
  | nil => rfl
  | cons c inside ih =>
    by_cases hc : c = '\n'
    · rw [hc, List.count_cons_self, List.replicate_succ, List.cons_append, ← ih,
        List.filter_cons_of_pos (by rfl), List.cons_append, rows_break]
    · rw [List.count_cons_of_ne hc, ← ih, List.filter_cons_of_neg (by simpa using hc)]

/-- A row that is cut at its beginning is an empty row. -/
theorem map_rows_slashes {row cs : List Char} (h : ['/', '/'] <+: row) (hrow : '\n' ∉ row)
    (hcs : Stops (· ≠ '\n') cs) :
    (rows (row ++ cs)).map withoutTail = (rows cs).map withoutTail := by
  cases cs with
  | nil =>
    rw [List.append_nil, rows, List.splitOn_eq_singleton hrow, List.map_singleton,
      withoutTail_slashes h]
    rfl
  | cons c cs =>
    have hc : c = '\n' := by simpa using hcs
    rw [hc, rows, List.splitOn_append_cons_self_of_not_mem hrow, List.map_cons,
      withoutTail_slashes h, rows_break]
    rfl

theorem stops_withoutBlocks {cs : List Char} (h : Stops (· ≠ '\n') cs) :
    Stops (· ≠ '\n') (withoutBlocks cs) := by
  cases cs with
  | nil => rwa [withoutBlocks_nil]
  | cons c cs =>
    have hc : c = '\n' := by simpa using h
    rw [hc, withoutBlocks_cons fun _ hslash => absurd hslash (by decide)]
    simp

theorem head?_withoutBlocks {cs : List Char} (h : cs.head? ≠ some '/') :
    (withoutBlocks cs).head? ≠ some '/' := by
  cases cs with
  | nil => rwa [withoutBlocks_nil]
  | cons c cs =>
    rwa [withoutBlocks_cons fun _ hslash => absurd (by rw [hslash]; rfl) h]

/-! ### Lines of code -/

/-- If comments up to the end of a row are contained, the rows without comments are the rows that
are left where comments are hidden. -/
theorem bareRows_eq {cs : List Char} (h : AllContained (pieces cs)) :
    bareRows cs = rows ((pieces cs).flatMap Piece.shown) := by
  fun_induction pieces cs with
  | case1 => simp [bareRows, rows, withoutBlocks_nil, withoutTail, cutAtPair]
  | case2 rest ih =>
    have hstop : '\n' ∉ rest.takeWhile (· ≠ '\n') := fun hmem =>
      absurd (List.mem_takeWhile_imp hmem) (by decide)
    have hrow : '\n' ∉ '/' :: '/' :: rest.takeWhile (· ≠ '\n') :=
      List.not_mem_cons_of_ne_of_not_mem (by decide)
        (List.not_mem_cons_of_ne_of_not_mem (by decide) hstop)
    have htail := h.1
    rw [source_pieces] at htail
    have hstops := stops_dropWhile (· ≠ '\n') rest
    calc bareRows ('/' :: '/' :: rest)
      _ = bareRows ('/' :: '/' :: rest.takeWhile (· ≠ '\n') ++ rest.dropWhile (· ≠ '\n')) := by
        simp
      _ = bareRows (rest.dropWhile (· ≠ '\n')) := by
        rw [bareRows, withoutBlocks_append hstops htail.closed, map_rows_slashes htail.slashes
          (break_not_mem_withoutBlocks hrow) (stops_withoutBlocks hstops), bareRows]
      _ = _ := ih h.2
  | case3 rest inside after hcut ih =>
    rw [bareRows, withoutBlocks_block hcut, rows_breaks, List.map_append, List.map_replicate,
      ← bareRows, ih h, List.flatMap_cons, Piece.shown, rows_breaks]
    rfl
  | case4 rest hcut ih =>
    have hrest := ih h
    have hself := withoutBlocks_of_not_closed (cutAtPair_eq_none_iff.1 hcut)
    rw [bareRows, hself] at hrest
    rw [bareRows, withoutBlocks_open hcut, map_rows_cons (by decide) (by simp),
      map_rows_cons (by decide) (by simp), hrest, List.flatMap_cons, List.flatMap_cons]
    exact ((rows_cons (by decide) _).trans (congrArg _ (rows_cons (by decide) _))).symm
  | case5 c rest hslash hmark ih =>
    rw [bareRows, withoutBlocks_cons hmark, List.flatMap_cons, Piece.shown, List.singleton_append]
    by_cases hc : c = '\n'
    · rw [hc, rows_break, rows_break, ← ih h]
      rfl
    · have hnext : c = '/' → (withoutBlocks rest).head? ≠ some '/' := fun heq =>
        head?_withoutBlocks fun hhead => by
          obtain ⟨rest, rfl⟩ := List.head?_eq_some_iff.1 hhead
          exact hslash rest heq rfl
      rw [map_rows_cons hc hnext, ← bareRows, ih h, rows_cons hc]

/-- Texts with different code in a row have different lines. -/
theorem lines_ne {cs ds row other : List Char} {i : Nat} (hrow : (bareRows cs)[i]? = some row)
    (hother : (bareRows ds)[i]? = some other) (hfilled : trim row ≠ [])
    (hne : trim row ≠ trim other) : lines (.ofList cs) ≠ lines (.ofList ds) := by
  intro heq
  rw [lines_eq_numbered, lines_eq_numbered, String.toList_ofList, String.toList_ofList] at heq
  have hline : (⟨.ofList (trim row), i + 1⟩ : Line) ∈ numbered (bareRows cs) :=
    mem_numbered_iff.2 ⟨row, Nat.le_add_left .., hrow, hfilled, String.toList_ofList⟩
  rw [heq, mem_numbered_iff] at hline
  obtain ⟨found, -, hfound, -, htext⟩ := hline
  rw [Nat.add_sub_cancel, hother] at hfound
  cases hfound
  exact hne (String.toList_ofList.symm.trans htext)

/-- A comment that is open goes on to a mark in the next row, and takes that mark with it. -/
theorem lines_ne_of_open {tail : List Char} (htail : '\n' ∉ '/' :: '/' :: tail)
    (hopen : leavesOpen ('/' :: '/' :: tail) = true) :
    lines (.ofList ('/' :: '/' :: tail ++ ['\n', '*', '/', 'x'])) ≠
      lines (.ofList ['\n', '*', '/', 'x']) := by
  obtain ⟨left, hleft, heq⟩ := exists_withoutBlocks_of_open hopen htail
  have hrow : (bareRows ('/' :: '/' :: tail ++ ['\n', '*', '/', 'x']))[1]? = some ['x'] := by
    rw [bareRows, heq, withoutBlocks_of_not_closed (by decide), rows,
      List.splitOn_append_cons_self_of_not_mem hleft]
    rfl
  have hother : (bareRows ['\n', '*', '/', 'x'])[1]? = some ['*', '/', 'x'] := by decide +kernel
  exact lines_ne hrow hother (by decide) (by decide)

/-- Of a comment without its two slashes the first one is left at least. -/
theorem lines_ne_of_no_slashes {tail : List Char} (htail : '\n' ∉ '/' :: '/' :: tail)
    (hclosed : leavesOpen ('/' :: '/' :: tail) ≠ true)
    (hslashes : ¬['/', '/'] <+: withoutBlocks ('/' :: '/' :: tail)) :
    lines (.ofList ('/' :: '/' :: tail ++ ['\n'])) ≠ lines (.ofList ['\n']) := by
  have hfirst : withoutBlocks ('/' :: '/' :: tail) = '/' :: withoutBlocks ('/' :: tail) :=
    withoutBlocks_cons (by simp)
  have hnext : (withoutBlocks ('/' :: tail)).head? ≠ some '/' := fun hhead => by
    obtain ⟨more, hmore⟩ := List.head?_eq_some_iff.1 hhead
    exact hslashes ⟨more, by rw [hfirst, hmore]; rfl⟩
  have hfilled : trim (withoutTail (withoutBlocks ('/' :: '/' :: tail))) ≠ [] := by
    rw [hfirst, withoutTail_cons fun _ => hnext, Ne, trim_eq_nil_iff]
    exact fun hblank => absurd (hblank '/' List.mem_cons_self) (by decide)
  have hrow : (bareRows ('/' :: '/' :: tail ++ ['\n']))[0]? =
      some (withoutTail (withoutBlocks ('/' :: '/' :: tail))) := by
    rw [bareRows, withoutBlocks_append (by simp) fun hopen => absurd hopen hclosed,
      @withoutBlocks_of_not_closed ['\n'] (by decide), rows,
      List.splitOn_append_cons_self_of_not_mem (break_not_mem_withoutBlocks htail)]
    rfl
  have hother : (bareRows ['\n'])[0]? = some [] := by decide +kernel
  exact lines_ne hrow hother hfilled hfilled

/-- A comment at the beginning of a text is contained, whatever comes after it, exactly if it is
hidden, whatever comes after it. -/
theorem contained_iff_hidden {tail : List Char} (htail : '\n' ∉ tail) :
    (∀ rest, Contained tail ('\n' :: rest)) ↔ ∀ rest,
      lines (.ofList ('/' :: '/' :: tail ++ '\n' :: rest)) = lines (.ofList ('\n' :: rest)) := by
  have hrow : '\n' ∉ '/' :: '/' :: tail := by simp [htail]
  constructor
  · intro h rest
    rw [lines_eq_numbered, lines_eq_numbered, String.toList_ofList, String.toList_ofList, bareRows,
      withoutBlocks_append (by simp) (h rest).closed, map_rows_slashes (h rest).slashes
        (break_not_mem_withoutBlocks hrow) (stops_withoutBlocks (by simp)), bareRows]
  · intro h rest
    have hclosed : leavesOpen ('/' :: '/' :: tail) ≠ true := fun hopen =>
      lines_ne_of_open hrow hopen (h _)
    exact {
      slashes := by_contra fun hslashes => lines_ne_of_no_slashes hrow hclosed hslashes (h _)
      closed := fun hopen => absurd hopen hclosed }

/-- **Comments are hidden** where they are contained. The lines of code of a text are those that
are left where its comments are hidden, if each comment up to the end of a row is contained; and it
is if no mark in it opens another comment. A comment at the beginning of a text hides itself alone,
whatever comes after it, exactly if it is contained. -/
theorem comments_hidden (text : String) :
    (pieces text.toList).flatMap Piece.source = text.toList ∧
    (AllContained (pieces text.toList) → lines text = shownLines text) ∧
    (∀ tail after : List Char, ¬['/', '*'] <:+: '/' :: '/' :: tail → Contained tail after) ∧
    ∀ tail : List Char, '\n' ∉ tail →
      ((∀ rest, Contained tail ('\n' :: rest)) ↔ ∀ rest,
        lines (.ofList ('/' :: '/' :: tail ++ '\n' :: rest)) =
          lines (.ofList ('\n' :: rest))) := by
  refine ⟨source_pieces _, fun h => ?_, fun tail after h => contained_of_no_mark h after,
    fun tail htail => contained_iff_hidden htail⟩
  rw [lines_eq_numbered, bareRows_eq h, shownLines]

/-- Comments of all kinds: an opening mark in a comment, two slashes between marks, a mark that
nothing closes. -/
def containedText : String :=
  "message A \x7b // a /* b */ c\n/* // d\n */ optional string e = 1; /**/ // f /*\n\x7d /* g\n"

theorem comments_hidden_contained :
    AllContained (pieces containedText.toList) ∧ lines containedText = shownLines containedText ∧
      shownLines containedText =
        [⟨"message A \x7b", 1⟩, ⟨"optional string e = 1;", 3⟩, ⟨"\x7d /* g", 4⟩] ∧
      ∀ rest, lines (.ofList ("// a".toList ++ '\n' :: rest)) = lines (.ofList ('\n' :: rest)) := by
  have hcontained : AllContained (pieces containedText.toList) := by decide +kernel
  obtain ⟨-, hlines, hplain, hhidden⟩ := comments_hidden containedText
  exact ⟨hcontained, hlines hcontained, by decide +kernel,
    (hhidden [' ', 'a'] (by decide)).1 fun rest => hplain _ _ (by decide)⟩

/-- **Comments hide more than themselves, and less.** A mark in a comment takes away the code that
follows, up to a mark in another comment. Of a comment whose second slash belongs to a mark, what is
behind that mark is taken for code. -/
theorem comments_hidden_fails :
    (lines "// see /*\nmessage A \x7b\n\x7d\n// done */\n" = [] ∧
      shownLines "// see /*\nmessage A \x7b\n\x7d\n// done */\n" =
        [⟨"message A \x7b", 2⟩, ⟨"\x7d", 3⟩]) ∧
    lines "message A//**/*x*/B \x7b\n\x7d" = [⟨"message A/*x*/B \x7b", 1⟩, ⟨"\x7d", 2⟩] ∧
      shownLines "message A//**/*x*/B \x7b\n\x7d" = [⟨"message A", 1⟩, ⟨"\x7d", 2⟩] := by
  decide +kernel

end Source
end SwiftWrap
