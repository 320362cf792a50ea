import SwiftWrap.Proofs.Linked
import SwiftWrap.Swift.Code

/-! Names in generated code.

Whatever generated code calls by a name is a token: letters, with dots, backticks, brackets or
a question mark (`Token`). A letter is a character of a word, or any other beyond ASCII that
is no white space: changing case may lead out of words, but not out of letters
(`all_isLetter_capitalized`, `all_isLetter_camelCase`).

A linked schema whose names are words has tokens for all its names (`Schema.Linked.token_path`
and those beside it). -/
namespace SwiftWrap
open Text

namespace Text

/-- A code point of a word, or any other beyond ASCII that is no white space. -/
def isLetterPoint (n : Nat) : Bool :=
  (0x80 ≤ n && !blankRanges.contains n) || wordRanges.contains n

/-- A character of a word, or any other beyond ASCII that is no white space. -/
def isLetter (c : Char) : Bool := isLetterPoint c.toNat

/-- A character of a path. -/
def isRef (c : Char) : Bool := isLetter c || c == '.'

/-- A character of a name, which may stand in backticks. -/
def isName (c : Char) : Bool := isLetter c || c == '`'

/-- A character of what generated code calls by a name. -/
def isToken (c : Char) : Bool := isLetter c || ".`?[]".toList.contains c

/-- What a schema reads as a word is made of letters. -/
theorem isLetter_of_isWord {c : Char} (h : isWord c = true) : isLetter c = true := by
  rw [isLetter, isLetterPoint, Bool.or_eq_true]
  exact .inr h

/-- No letter is trimmed away at the end of a line. -/
theorem letter_not_blank {c : Char} (h : isLetter c = true) : isBlank c = false := by
  rw [isLetter, isLetterPoint, Bool.or_eq_true, Bool.and_eq_true] at h
  rcases h with ⟨-, h⟩ | h
  · rw [Bool.not_eq_true'] at h
    exact h
  · exact word_not_blank c h

theorem isToken_of_isLetter {c : Char} (h : isLetter c = true) : isToken c = true := by
  rw [isToken, h, Bool.true_or]

theorem isRef_of_isLetter {c : Char} (h : isLetter c = true) : isRef c = true := by
  rw [isRef, h, Bool.true_or]

theorem isToken_of_isRef {c : Char} (h : isRef c = true) : isToken c = true := by
  rw [isRef, Bool.or_eq_true, beq_iff_eq] at h
  rcases h with h | rfl
  · exact isToken_of_isLetter h
  · decide

theorem isName_of_isLetter {c : Char} (h : isLetter c = true) : isName c = true := by
  rw [isName, h, Bool.true_or]

theorem isToken_of_isName {c : Char} (h : isName c = true) : isToken c = true := by
  rw [isName, Bool.or_eq_true, beq_iff_eq] at h
  rcases h with h | rfl
  · exact isToken_of_isLetter h
  · decide

/-- Nor is anything else that a token is made of. -/
theorem token_not_blank {c : Char} (h : isToken c = true) : isBlank c = false := by
  rw [isToken, Bool.or_eq_true] at h
  rcases h with h | h
  · exact letter_not_blank h
  · have hall : (".`?[]".toList.all fun x => !isBlank x) = true := by decide
    simpa using List.all_eq_true.1 hall c (List.contains_iff_mem.1 h)

/-! ### Changing case -/

/-- A code point that is a letter's. -/
def isLetterCode (n : Nat) : Bool := isLetterPoint n && (n < 0xD800 || (0xDFFF < n && n < 0x110000))

/-- A code point in the ranges of letters, surrogates left out, is that of a letter. -/
theorem isLetter_ofNat {n : Nat} (h : isLetterCode n = true) : isLetter (Char.ofNat n) = true := by
  rw [isLetterCode, Bool.and_eq_true] at h
  have hvalid : n.isValidChar := by
    have := h.2
    simp only [Bool.or_eq_true, Bool.and_eq_true, decide_eq_true_eq] at this
    unfold Nat.isValidChar
    omega
  have hpoint : (Char.ofNat n).toNat = n := by
    rw [Char.ofNat, dif_pos hvalid]
    rfl
  rw [isLetter, hpoint]
  exact h.1

/-- The first code point that a run leads to. -/
def CaseRun.low (r : CaseRun) : Nat := (r.first + r.shift).toNat

/-- The last code point that a run leads to. -/
def CaseRun.high (r : CaseRun) : Nat := (r.last + r.shift).toNat

/-- A run leads to letters. Beyond ASCII it is enough that it passes by all white space. -/
def CaseRun.isLettered (r : CaseRun) : Bool :=
  if r.low < 0x80 then (List.range' r.low (r.high + 1 - r.low)).all isLetterCode
  else
    (blankRanges.all fun (first, last) => last < r.low || r.high < first) &&
      (r.high < 0xD800 || (0xDFFF < r.low && r.high < 0x110000))

/-- A search that finds a code point has found the range it lies in. -/
theorem Ranges.exists_of_contains {ranges : Ranges} {n : Nat} (h : ranges.contains n = true) :
    ∃ range ∈ ranges, range.1 ≤ n ∧ n ≤ range.2 := by
  induction ranges with
  | nil => simp [Ranges.contains] at h
  | cons range rest ih =>
    rw [Ranges.contains] at h
    split at h
    · simp at h
    · next hfirst =>
      rcases Bool.or_eq_true_iff.1 h with hn | hn
      · exact ⟨range, List.mem_cons_self, Nat.not_lt.1 hfirst, of_decide_eq_true hn⟩
      · obtain ⟨other, hother, hmem⟩ := ih hn
        exact ⟨other, List.mem_cons_of_mem range hother, hmem⟩

/-- A run that is checked at its ranges has letters for all its images. -/
theorem CaseRun.isLetterCode_of {r : CaseRun} (h : r.isLettered = true) {n : Nat}
    (hlow : r.low ≤ n) (hhigh : n ≤ r.high) : isLetterCode n = true := by
  rw [isLettered] at h
  split at h
  · exact List.all_eq_true.1 h n (List.mem_range'_1.2 (by omega))
  · rw [Bool.and_eq_true, List.all_eq_true] at h
    have hblank : blankRanges.contains n = false := by
      rw [Bool.eq_false_iff]
      intro hcontains
      obtain ⟨range, hrange, hin⟩ := Ranges.exists_of_contains hcontains
      have := h.1 range hrange
      simp only [Bool.or_eq_true, decide_eq_true_eq] at this
      omega
    have hcode := h.2
    simp only [Bool.or_eq_true, Bool.and_eq_true, decide_eq_true_eq] at hcode
    simp only [isLetterCode, isLetterPoint, hblank, Bool.not_false, Bool.and_true, Bool.and_eq_true,
      Bool.or_eq_true, decide_eq_true_eq]
    omega

/-- What moves, moves into the image of some run. -/
theorem exists_run_of_shifted {runs : List CaseRun} {n m : Nat} (h : shifted runs n = some m) :
    ∃ r ∈ runs, r.low ≤ m ∧ m ≤ r.high := by
  induction runs with
  | nil => simp [shifted] at h
  | cons r rest ih =>
    rw [shifted] at h
    split at h
    · simp at h
    · next hfirst =>
      split at h
      · next hlast =>
        cases h
        rw [Bool.and_eq_true, decide_eq_true_eq] at hlast
        refine ⟨r, List.mem_cons_self, ?_⟩
        unfold CaseRun.low CaseRun.high
        omega
      · obtain ⟨other, hother, hmem⟩ := ih h
        exact ⟨other, List.mem_cons_of_mem r hother, hmem⟩

/-- A mapping whose table has letters only takes letters to letters. -/
theorem all_isLetter_caseMapped {runs : List CaseRun} {expansions : List (Nat × List Nat)}
    (hruns : runs.all CaseRun.isLettered = true)
    (hexpansions : (expansions.all fun e => e.2.all isLetterCode) = true) {c : Char}
    (hc : isLetter c = true) : (caseMapped runs expansions c).all isLetter = true := by
  rw [caseMapped]
  split
  · next codes hlookup =>
    obtain ⟨before, after, heq, -⟩ := List.lookup_eq_some_iff.1 hlookup
    have hcodes := List.all_eq_true.1 hexpansions (c.toNat, codes) (by simp [heq])
    rw [List.all_map]
    refine List.all_eq_true.2 fun m hm => isLetter_ofNat ?_
    exact List.all_eq_true.1 hcodes m hm
  · cases hshift : shifted runs c.toNat with
    | none => simpa using hc
    | some m =>
      obtain ⟨r, hr, hlow, hhigh⟩ := exists_run_of_shifted hshift
      simpa using isLetter_ofNat (CaseRun.isLetterCode_of (List.all_eq_true.1 hruns r hr) hlow hhigh)

/-- Letters stay letters in upper case. The tables are checked run by run. -/
theorem all_isLetter_upperChar {c : Char} (h : isLetter c = true) :
    (upperChar c).all isLetter = true :=
  all_isLetter_caseMapped (by decide +kernel) (by decide +kernel) h

/-- Letters stay letters in lower case. -/
theorem all_isLetter_lowerChar {c : Char} (h : isLetter c = true) :
    (lowerChar c).all isLetter = true :=
  all_isLetter_caseMapped (by decide +kernel) (by decide +kernel) h

/-- A mapping that expands nothing to nothing keeps every character in some form. -/
theorem caseMapped_ne_nil {runs : List CaseRun} {expansions : List (Nat × List Nat)}
    (h : (expansions.all fun e => !e.2.isEmpty) = true) (c : Char) :
    caseMapped runs expansions c ≠ [] := by
  rw [caseMapped]
  split
  · next codes hlookup =>
    obtain ⟨before, after, heq, -⟩ := List.lookup_eq_some_iff.1 hlookup
    have hcodes := List.all_eq_true.1 h (c.toNat, codes) (by simp [heq])
    simpa using hcodes
  · simp

/-- No character vanishes when its case changes, so no name becomes empty. -/
theorem upperChar_ne_nil (c : Char) : upperChar c ≠ [] := caseMapped_ne_nil (by decide +kernel) c

theorem lowerChar_ne_nil (c : Char) : lowerChar c ≠ [] := caseMapped_ne_nil (by decide +kernel) c

end Text

/-! ### Texts of one class -/

/-- A text whose characters are all of one class. -/
def AllOf (p : Char → Bool) (s : String) : Prop := s.toList.all p = true

instance (p : Char → Bool) (s : String) : Decidable (AllOf p s) :=
  inferInstanceAs (Decidable (_ = true))

@[simp] theorem allOf_append {p : Char → Bool} {first second : String} :
    AllOf p (first ++ second) ↔ AllOf p first ∧ AllOf p second := by
  simp [AllOf]

theorem AllOf.mem {p : Char → Bool} {s : String} (h : AllOf p s) {c : Char} (hc : c ∈ s.toList) :
    p c = true :=
  List.all_eq_true.1 h c hc

/-- A wider class holds whatever a narrower one does. -/
theorem AllOf.mono {p q : Char → Bool} {s : String} (h : AllOf p s)
    (hpq : ∀ c, p c = true → q c = true) : AllOf q s :=
  List.all_eq_true.2 fun _ hc => hpq _ (h.mem hc)

theorem AllOf.ofList {p : Char → Bool} {cs : List Char} (h : ∀ c ∈ cs, p c = true) :
    AllOf p (.ofList cs) := by
  rw [AllOf, String.toList_ofList]
  exact List.all_eq_true.2 h

/-- Parts of one class, joined by something of that class, are of that class. -/
theorem AllOf.intercalate {p : Char → Bool} {sep : String} {parts : List String} (hsep : AllOf p sep)
    (hparts : ∀ part ∈ parts, AllOf p part) : AllOf p (sep.intercalate parts) := by
  induction parts with
  | nil => rw [String.intercalate_nil]; rfl
  | cons part rest ih =>
    obtain ⟨hpart, hrest⟩ := List.forall_mem_cons.1 hparts
    cases rest with
    | nil => rwa [String.intercalate_singleton]
    | cons next rest =>
      rw [String.intercalate_cons_cons, allOf_append, allOf_append]
      exact ⟨⟨hpart, hsep⟩, ih hrest⟩

theorem AllOf.join {p : Char → Bool} {parts : List String} (h : ∀ part ∈ parts, AllOf p part) :
    AllOf p (String.join parts) := by
  rw [AllOf, String.toList_join, List.all_flatMap]
  exact List.all_eq_true.2 h

/-- Words that are read off a line can stand in generated names. -/
theorem allOf_isLetter_of_run {word : String} (h : Run isWord word.toList) : AllOf isLetter word :=
  List.all_eq_true.2 fun c hc => isLetter_of_isWord (h.2 c hc)

/-- A run has a character at least. -/
theorem ne_empty_of_run {p : Char → Bool} {word : String} (h : Run p word.toList) : word ≠ "" := by
  rintro rfl
  exact h.1 rfl

/-- Capitalizing leaves a text of letters one of letters. -/
theorem AllOf.capitalized {s : String} (h : AllOf isLetter s) : AllOf isLetter (capitalized s) := by
  rw [Text.capitalized]
  split
  · rfl
  · next c rest hs =>
    rw [AllOf, hs, List.all_cons, Bool.and_eq_true] at h
    rw [AllOf, String.toList_ofList, List.all_append, all_isLetter_upperChar h.1, h.2]
    rfl

theorem capitalized_ne_empty {s : String} (h : s ≠ "") : capitalized s ≠ "" := by
  rw [Text.capitalized]
  split
  · next hs => exact absurd (String.toList_eq_nil_iff.1 hs) h
  · next c rest _ =>
    intro hempty
    have := congrArg String.toList hempty
    rw [String.toList_ofList] at this
    simp [upperChar_ne_nil] at this

/-- Neither form of the sigma leaves the letters. -/
theorem all_isLetter_lowerAfter {cs : List Char} (h : cs.all isLetter = true) (before : List Char) :
    (lowerAfter before cs).all isLetter = true := by
  induction cs generalizing before with
  | nil => rfl
  | cons c rest ih =>
    rw [List.all_cons, Bool.and_eq_true] at h
    have hsigma : isLetter 'ς' = true ∧ isLetter 'σ' = true := by decide
    rw [lowerAfter, List.all_append, ih h.2, Bool.and_true]
    split
    · split <;> simp [hsigma]
    · exact all_isLetter_lowerChar h.1

/-- Words in camel case are letters: the underscores between them are gone. -/
theorem AllOf.camelCase {s : String} (h : AllOf isLetter s) : AllOf isLetter (camelCase s) := by
  have hwords : ∀ word ∈ (List.splitOn '_' s.toList).map fun word => String.ofList (lowerCase word),
      AllOf isLetter word := by
    intro word hword
    obtain ⟨piece, hpiece, rfl⟩ := List.mem_map.1 hword
    refine AllOf.ofList (List.all_eq_true.1 (all_isLetter_lowerAfter (List.all_eq_true.2 ?_) []))
    intro c hc
    exact h.mem ((flatten_splitOn_sublist '_' s.toList).mem (List.mem_flatten_of_mem hpiece hc))
  rw [Text.camelCase]
  split
  · rfl
  · next first rest heq =>
    rw [heq] at hwords
    obtain ⟨hfirst, hrest⟩ := List.forall_mem_cons.1 hwords
    refine allOf_append.2 ⟨hfirst, AllOf.join fun part hpart => ?_⟩
    obtain ⟨word, hword, rfl⟩ := List.mem_map.1 hpart
    exact (hrest word hword).capitalized

theorem AllOf.ref {s : String} (h : AllOf isLetter s) : AllOf isRef s :=
  h.mono fun _ => isRef_of_isLetter

theorem AllOf.token {s : String} (h : AllOf isRef s) : AllOf isToken s :=
  h.mono fun _ => isToken_of_isRef

/-- A chain of references, joined by dots, is a reference. -/
theorem AllOf.dotted {chain : List String} (h : ∀ name ∈ chain, AllOf isRef name) :
    AllOf isRef (dotted chain) :=
  AllOf.intercalate (by decide) h

/-! ### Identifiers -/

namespace Swift

theorem allOf_ticked {name : String} (h : AllOf isLetter name) : AllOf isName (ticked name) := by
  have htick : AllOf isName "`" := by decide
  exact allOf_append.2 ⟨allOf_append.2 ⟨htick, h.mono fun _ => isName_of_isLetter⟩, htick⟩

/-- An escaped name has backticks at most beside its letters. -/
theorem allOf_escaped {name : String} (h : AllOf isLetter name) : AllOf isName (escaped name) := by
  rw [escaped]
  split
  · exact allOf_ticked h
  · exact h.mono fun _ => isName_of_isLetter

theorem escaped_ne_empty {name : String} (h : name ≠ "") : escaped name ≠ "" := by
  rw [escaped]
  split
  · simp [ticked]
  · exact h

/-- No name is written as a reserved word, since those are escaped. -/
theorem escaped_ne_reserved {name word : String} (h : isReserved word = true)
    (htick : word.toList.head? ≠ some '`') : escaped name ≠ word := by
  rw [escaped]
  split
  · rintro rfl
    simp [ticked] at htick
  · next hname =>
    rintro rfl
    exact hname h

theorem allOf_member {name : String} (h : AllOf isLetter name) : AllOf isToken (member name) := by
  rw [member, allOf_append]
  refine ⟨by decide, ?_⟩
  split
  · exact (allOf_ticked h).mono fun _ => isToken_of_isName
  · exact h.ref.token

end Swift

/-- The digits of a number are letters. -/
theorem allOf_isLetter_repr (n : Nat) : AllOf isLetter n.repr := by
  have hdigits : ∀ k ∈ List.range' 48 10, isLetterPoint k = true := by decide
  refine List.all_eq_true.2 fun c hc => ?_
  obtain ⟨hlow, hhigh⟩ := Char.isDigit_iff_toNat.1 ((run_repr n).2 c hc)
  exact hdigits c.toNat (List.mem_range'_1.2 ⟨hlow, Nat.lt_succ_of_le hhigh⟩)

/-! ### Names of a linked schema -/

/-- All names are words, and so are the prefixes, which may be empty. -/
structure Schema.Worded (s : Schema) (p : Prefixes) : Prop where
  names : ∀ d ∈ s.declarations, Run isWord d.name.toList
  wrapper : ∀ c ∈ p.wrapper.toList, isWord c = true
  wire : ∀ c ∈ p.wire.toList, isWord c = true

namespace Schema.Linked
variable {s : Schema} {p : Prefixes} (h : s.Linked p) (hw : s.Worded p)

include hw in
/-- Every name in a schema that is read is made of letters. -/
theorem allOf_nameOf (id : Nat) : AllOf isLetter (s.nameOf id) := by
  rw [nameOf, viewAt]
  split
  · next d hd => exact allOf_isLetter_of_run (hw.names d (List.mem_of_getElem? hd))
  · rfl

include hw in
theorem allOf_nameChain (id : Nat) : ∀ name ∈ s.nameChain id, AllOf isLetter name := by
  intro name hname
  rw [nameChain, List.mem_reverse] at hname
  obtain ⟨k, -, rfl⟩ := List.mem_map.1 hname
  exact allOf_nameOf hw k

include hw in
/-- So is every name made from them, if the prefix is. -/
theorem allOf_wrapperName (id : Nat) : AllOf isLetter (p.wrapperName (s.nameChain id)) := by
  refine allOf_append.2 ⟨?_, AllOf.join fun part hpart => ?_⟩
  · exact List.all_eq_true.2 fun c hc => isLetter_of_isWord (hw.wrapper c hc)
  · obtain ⟨name, hname, rfl⟩ := List.mem_map.1 hpart
    exact (allOf_nameChain hw id name hname).capitalized

include h hw

theorem allOf_wrapper {id : Nat} {d : Declaration} (hd : s.get? id = some d) :
    AllOf isLetter d.names.wrapper := by
  rw [h.names id d hd]
  exact allOf_wrapperName hw id

/-- A declaration that is read has a name, so its wrapper has one. -/
theorem wrapper_ne_empty {id : Nat} {d : Declaration} (hd : s.get? id = some d) :
    d.names.wrapper ≠ "" := by
  rw [h.names id d hd]
  have hname : s.nameOf id ≠ "" := by
    rw [nameOf, viewAt_of_get? hd]
    exact ne_empty_of_run (hw.names d (List.mem_of_getElem? hd))
  have hlast : s.nameChain id = ((s.enclosing id).map s.nameOf).reverse ++ [s.nameOf id] := by
    rw [nameChain, List.map_cons, List.reverse_cons]
  have hcapital := capitalized_ne_empty hname
  simp only [namesFor, Prefixes.wrapperName, hlast, List.map_append, List.map_cons, List.map_nil]
  intro hempty
  apply hcapital
  have hchars := congrArg String.toList hempty
  simp only [String.toList_append, String.toList_join, List.flatMap_append, String.toList_empty,
    List.append_eq_nil_iff, List.flatMap_cons, List.flatMap_nil] at hchars
  exact String.toList_eq_nil_iff.1 hchars.2.2.1

/-- The path of a wrapper is a reference: letters and the dots between them. -/
theorem allOf_path {id : Nat} {d : Declaration} (hd : s.get? id = some d) :
    AllOf isRef d.names.path := by
  have hpath : d.names.path = s.pathOf id := by rw [pathOf, viewAt_of_get? hd]
  rw [hpath, h.pathOf_eq (lt_of_get? hd)]
  refine AllOf.dotted fun name hname => ?_
  rw [pathChain, List.mem_reverse] at hname
  obtain ⟨k, -, rfl⟩ := List.mem_map.1 hname
  rw [wrapperOf, viewAt]
  split
  · next e he => exact (allOf_wrapper h hw he).ref
  · rfl

theorem path_ne_empty {id : Nat} {d : Declaration} (hd : s.get? id = some d) :
    d.names.path ≠ "" := by
  have hwrapper := wrapper_ne_empty h hw hd
  have hpath : d.names.path = s.pathUnder d.parent d.names.wrapper := by
    rw [h.names id d hd]
    rfl
  rw [hpath]
  cases d.parent with
  | none => exact hwrapper
  | some parent => simp [pathUnder]

/-- So is the name of the type that it wraps. -/
theorem allOf_wire {id : Nat} {d : Declaration} (hd : s.get? id = some d) :
    AllOf isRef d.names.wire := by
  have hchain : ∀ chain : List String, (∀ name ∈ chain, AllOf isLetter name) →
      ∀ name ∈ wireChain d.kind chain, AllOf isRef name := by
    intro chain hchain
    induction chain with
    | nil => simp [wireChain]
    | cons name rest ih =>
      obtain ⟨hname, hrest⟩ := List.forall_mem_cons.1 hchain
      cases rest with
      | nil =>
        refine List.forall_mem_singleton.2 ?_
        split
        · exact allOf_append.2 ⟨hname.ref, by decide⟩
        · exact hname.ref
      | cons next rest => exact List.forall_mem_cons.2 ⟨hname.ref, ih hrest⟩
  have hname := AllOf.dotted (hchain _ (allOf_nameChain hw id))
  have hlead : AllOf isRef p.wire :=
    AllOf.ref (List.all_eq_true.2 fun c hc => isLetter_of_isWord (hw.wire c hc))
  rw [h.names id d hd]
  simp only [namesFor, Prefixes.wireName]
  split
  · exact hname
  · exact allOf_append.2 ⟨allOf_append.2 ⟨hlead, by decide⟩, hname⟩

end Schema.Linked
end SwiftWrap
