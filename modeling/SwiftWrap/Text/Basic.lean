/-! Characters and pieces of text.

Classes of characters are sets of code points. A text is cut at characters, at pairs of
characters and at given beginnings, and trimmed of white space at its ends. -/
namespace SwiftWrap.Text

/-! ### Sets of code points -/

/-- Inclusive ranges of code points, ascending and disjoint. -/
abbrev Ranges := List (Nat × Nat)

/-- Whether a code point lies in one of the ranges. The search ends at the first range
that starts above it. -/
def Ranges.contains : Ranges → Nat → Bool
  | [], _ => false
  | (first, last) :: rest, n =>
    if n < first then false else n ≤ last || Ranges.contains rest n

/-! ### White space -/

/-- The code points of white space, Unicode property `White_Space`. -/
def blankRanges : Ranges := [
  (0x09, 0x0D), (0x20, 0x20), (0x85, 0x85), (0xA0, 0xA0), (0x1680, 0x1680), (0x2000, 0x200A),
  (0x2028, 0x2029), (0x202F, 0x202F), (0x205F, 0x205F), (0x3000, 0x3000)]

/-- Whether a character is white space. -/
def isBlank (c : Char) : Bool := blankRanges.contains c.toNat

/-- The text from its first character that is not white space. -/
def trimStart (cs : List Char) : List Char := cs.dropWhile isBlank

/-- The text up to its last character that is not white space. -/
def trimEnd (cs : List Char) : List Char := (cs.reverse.dropWhile isBlank).reverse

/-- The text without white space at either end. -/
def trim (cs : List Char) : List Char := trimEnd (trimStart cs)

/-- Whether a text is white space only. -/
def allBlank (cs : List Char) : Bool := cs.all isBlank

/-! ### Cuts -/

/-- What stands before and after the first place where `a` is followed by `b`. -/
def cutAtPair (a b : Char) : List Char → Option (List Char × List Char)
  | c :: d :: rest =>
    if c = a ∧ d = b then some ([], rest)
    else (cutAtPair a b (d :: rest)).map fun (before, after) => (c :: before, after)
  | _ => none

/-- A cut loses exactly the pair. -/
theorem eq_of_cutAtPair {a b : Char} {cs before after : List Char}
    (h : cutAtPair a b cs = some (before, after)) : cs = before ++ a :: b :: after := by
  induction cs generalizing before with
  | nil => simp [cutAtPair] at h
  | cons c rest ih =>
    match rest with
    | [] => simp [cutAtPair] at h
    | d :: rest =>
      rw [cutAtPair] at h
      split at h
      · simp_all
      · obtain ⟨⟨before', after'⟩, hcut, heq⟩ := Option.map_eq_some_iff.1 h
        cases heq
        simp [ih hcut]

/-- What stands before the last occurrence of a character, if there is one. -/
def beforeLast (mark : Char) : List Char → Option (List Char)
  | [] => none
  | c :: rest =>
    match beforeLast mark rest with
    | some before => some (c :: before)
    | none => if c = mark then some [] else none

/-- What follows a given beginning, if the text starts with it. -/
def after? : List Char → List Char → Option (List Char)
  | [], cs => some cs
  | p :: ps, c :: cs => if p = c then after? ps cs else none
  | _ :: _, [] => none

end SwiftWrap.Text
