import SwiftWrap.Proofs.Text
import SwiftWrap.Source

/-! How statements are spelled.

Each statement has a form: words and numbers as runs of their characters, with white space
between them where the form has it. The forms say nothing about how a line is read. A line
may have the form of a block in several ways, but they all give one name; only a package
line can be cut into different names, and there the longest gap counts, and with it the
longest name.

A line is read as a statement of its scope exactly if it has that statement's form:
`FileStatement.read?_eq_some_iff`, `MessageStatement.read?_eq_some_iff` and
`EnumStatement.read?_eq_some_iff`. -/
namespace SwiftWrap
namespace Spelling
open Text Statement

/-! ### Forms -/

/-- The language version, or an option: whatever follows the keyword and one space. -/
def IsIgnored (text : String) : Prop :=
  "syntax ".toList <+: text.toList ∨ "option ".toList <+: text.toList

/-- The keyword, white space, a name within one line, and a semicolon; anything may follow. -/
structure PackageCut (cs gap name : List Char) : Prop where
  start : "package".toList ++ (gap ++ (name ++ [';'])) <+: cs
  gap : Run isBlank gap
  name : Run (· ≠ '\n') name

/-- A package line, by its longest gap and then its longest name. -/
def IsPackage (text name : String) : Prop :=
  ∃ gap body, PackageCut text.toList gap body ∧ name = .ofList (trim body) ∧
    ∀ gap' body', PackageCut text.toList gap' body' →
      gap'.length < gap.length ∨ gap'.length = gap.length ∧ body'.length ≤ body.length

/-- What stands between the keyword and the brace of a block: a name within one line, and
white space on both sides. -/
def IsBetween (inner : List Char) (name : String) : Prop :=
  ∃ gap body gap', inner = gap ++ body ++ gap' ∧ Run isBlank gap ∧ Run (· ≠ '\n') body ∧
    Run isBlank gap' ∧ name = .ofList (trim body)

/-- The line that opens a block. -/
def IsBlock (kind : Kind) (text name : String) : Prop :=
  ∃ inner, text.toList = kind.keyword.toList ++ (inner ++ ['\x7b']) ∧ IsBetween inner name

/-- A number below a bound, in ASCII digits. Zeros may lead it. -/
structure IsNumber (bound : Nat) (digits : List Char) (n : Nat) : Prop where
  run : Run Char.isDigit digits
  value : Nat.ofDigitChars 10 digits 0 = n
  lt : n < bound

/-- What stands in front of a field's type: how often the field occurs, or nothing. -/
inductive IsLead : List Char → Option Cardinality → Prop where
  | absent : IsLead [] none
  | word (c : Cardinality) {gap : List Char} (h : Run isBlank gap) :
      IsLead (c.keyword.toList ++ gap) (some c)

/-- What stands in front of the semicolon of a field: its default value, or nothing. -/
inductive IsDefault : List Char → Option Bool → Prop where
  | absent : IsDefault [] none
  | yes : IsDefault "[default = true]".toList (some true)
  | no : IsDefault "[default = false]".toList (some false)

/-- What follows the equals sign of a field. -/
inductive IsValue : List Char → Nat → Option Bool → Prop where
  | intro {digits gap ending : List Char} {index : Nat} {default : Option Bool}
      (hnumber : IsNumber 0x100000000 digits index) (hgap : ∀ c ∈ gap, isBlank c = true)
      (hending : IsDefault ending default) :
      IsValue (digits ++ (gap ++ (ending ++ [';']))) index default

/-- An equals sign with white space around it, or none. -/
def IsEquals (cs : List Char) : Prop :=
  ∃ gap gap', cs = gap ++ '=' :: gap' ∧ (∀ c ∈ gap, isBlank c = true) ∧
    ∀ c ∈ gap', isBlank c = true

/-- The line that declares a field. -/
inductive IsField : String → Field → Prop where
  | intro {text : String} {lead type gap name equals value : List Char}
      {cardinality : Option Cardinality} {index : Nat} {default : Option Bool}
      (htext : text.toList = lead ++ (type ++ (gap ++ (name ++ (equals ++ value)))))
      (hlead : IsLead lead cardinality) (htype : Run isWord type) (hgap : Run isBlank gap)
      (hname : Run isWord name) (hequals : IsEquals equals)
      (hvalue : IsValue value index default) :
      IsField text (.declare cardinality (.ofList type) (.ofList name) index default)

/-- The line that declares an item. -/
inductive IsItem : String → Item → Prop where
  | intro {text : String} {name equals digits gap : List Char} {index : Nat}
      (htext : text.toList = name ++ (equals ++ (digits ++ (gap ++ [';']))))
      (hname : Run isWord name) (hequals : IsEquals equals)
      (hnumber : IsNumber 0x80000000 digits index) (hgap : ∀ c ∈ gap, isBlank c = true) :
      IsItem text ⟨.ofList name, index⟩

/-! ### Pieces of a line -/

theorem equals_stops : isWord '=' = false ∧ isBlank '=' = false := by decide +kernel

theorem semicolon_stops : isBlank ';' = false ∧ isDigit ';' = false := by decide +kernel

theorem bracket_stops : isBlank '[' = false ∧ isDigit '[' = false := by decide +kernel

/-- The word at the start of a text is its longest run of word characters. -/
theorem word?_eq_some_iff {cs rest : List Char} {word : String} :
    word? cs = some (word, rest) ↔
      cs = word.toList ++ rest ∧ Run isWord word.toList ∧ Stops isWord rest := by
  constructor
  · intro h
    unfold word? at h
    split at h
    · simp at h
    · next hne =>
      cases h
      rw [String.toList_ofList]
      exact ⟨List.takeWhile_append_dropWhile.symm, ⟨hne, fun _ => List.mem_takeWhile_imp⟩,
        stops_dropWhile isWord cs⟩
  · intro hx
    obtain ⟨rfl, ⟨hne, hword⟩, hrest⟩ := hx
    unfold word?
    rw [takeWhile_run hword hrest, dropWhile_run hword hrest]
    split
    · next h => exact absurd h hne
    · rw [String.ofList_toList]

theorem word?_run {word rest : List Char} (h : Run isWord word) (hrest : Stops isWord rest) :
    word? (word ++ rest) = some (.ofList word, rest) :=
  word?_eq_some_iff.2 (by rw [String.toList_ofList]; exact ⟨rfl, h, hrest⟩)

/-- A gap is all the white space there is, and there is some. -/
theorem afterGap?_eq_some_iff {cs rest : List Char} :
    afterGap? cs = some rest ↔ ∃ gap, cs = gap ++ rest ∧ Run isBlank gap ∧ Stops isBlank rest := by
  cases cs with
  | nil =>
    constructor
    · simp [afterGap?]
    · intro hx
      obtain ⟨gap, hcs, ⟨hne, -⟩, -⟩ := hx
      simp_all
  | cons c cs =>
    rw [afterGap?]
    constructor
    · intro h
      split at h
      · next hc =>
        cases h
        refine ⟨c :: cs.takeWhile isBlank, ?_, ⟨by simp, ?_⟩, stops_dropWhile isBlank cs⟩
        · rw [List.cons_append, trimStart, List.takeWhile_append_dropWhile]
        · intro d hd
          rcases List.mem_cons.1 hd with rfl | hd
          · exact hc
          · exact List.mem_takeWhile_imp hd
      · simp at h
    · intro hx
      obtain ⟨gap, hcs, ⟨hne, hblank⟩, hrest⟩ := hx
      cases gap with
      | nil => exact absurd rfl hne
      | cons d gap =>
        obtain ⟨rfl, rfl⟩ := List.cons_eq_cons.1 hcs
        have hgap : ∀ x ∈ gap, isBlank x = true := fun x hx => hblank x (List.mem_cons_of_mem c hx)
        rw [if_pos (hblank c List.mem_cons_self)]
        exact congrArg some ((trimStart_blank hgap).trans (trimStart_eq_self hrest))

theorem afterGap?_run {gap rest : List Char} (h : Run isBlank gap) (hrest : Stops isBlank rest) :
    afterGap? (gap ++ rest) = some rest :=
  afterGap?_eq_some_iff.2 ⟨gap, rfl, h, hrest⟩

/-- An equals sign may have white space around it, or none. -/
theorem afterEquals?_eq_some_iff {cs rest : List Char} :
    afterEquals? cs = some rest ↔
      ∃ equals, cs = equals ++ rest ∧ IsEquals equals ∧ Stops isBlank rest := by
  constructor
  · intro h
    unfold afterEquals? at h
    split at h
    · next after hstart =>
      cases h
      refine ⟨cs.takeWhile isBlank ++ '=' :: after.takeWhile isBlank, ?_,
        ⟨_, _, rfl, fun _ => List.mem_takeWhile_imp, fun _ => List.mem_takeWhile_imp⟩,
        stops_dropWhile isBlank after⟩
      have hafter : after.takeWhile isBlank ++ trimStart after = after :=
        List.takeWhile_append_dropWhile
      rw [List.append_assoc, List.cons_append, hafter, ← hstart]
      exact List.takeWhile_append_dropWhile.symm
    · simp at h
  · intro hx
    obtain ⟨_, rfl, ⟨gap, gap', rfl, hgap, hgap'⟩, hrest⟩ := hx
    have hstart : trimStart (gap ++ '=' :: (gap' ++ rest)) = '=' :: (gap' ++ rest) :=
      (trimStart_blank hgap).trans (trimStart_eq_self (stops_cons.2 equals_stops.2))
    unfold afterEquals?
    rw [List.append_assoc, List.cons_append, hstart]
    exact congrArg some ((trimStart_blank hgap').trans (trimStart_eq_self hrest))

/-- No equals sign stands before the next word. -/
theorem afterEquals?_eq_none {gap word rest : List Char} (hgap : Run isBlank gap)
    (hword : Run isWord word) : afterEquals? (gap ++ (word ++ rest)) = none := by
  have hstart : trimStart (gap ++ (word ++ rest)) = word ++ rest :=
    (trimStart_blank hgap.2).trans (trimStart_eq_self (hword.stops word_not_blank rest))
  have hequals : Stops (· = '=') (word ++ rest) := hword.stops (fun c hc => ?_) rest
  · unfold afterEquals?
    rw [hstart]
    split
    · next heq =>
      rw [heq] at hequals
      simp at hequals
    · rfl
  · simp only [decide_eq_false_iff_not]
    intro heq
    subst heq
    simp [equals_stops.1] at hc

theorem IsEquals.stops_word {equals : List Char} (h : IsEquals equals) (rest : List Char) :
    Stops isWord (equals ++ rest) := by
  obtain ⟨gap, gap', rfl, hgap, -⟩ := h
  rw [List.append_assoc]
  exact stops_append hgap (fun c hc => (blank_outside hc).1) (stops_cons.2 equals_stops.1)

theorem isDigit_of_ascii (c : Char) (h : c.isDigit = true) : isDigit c = true := by
  have hascii : ∀ n ∈ List.range' 48 10, digitRanges.contains n = true := by decide +kernel
  obtain ⟨hlow, hhigh⟩ := Char.isDigit_iff_toNat.1 h
  exact hascii c.toNat (List.mem_range'_1.2 ⟨hlow, Nat.lt_succ_of_le hhigh⟩)

/-- A row of ASCII digits has the value that it has in base ten. -/
theorem decimal?_eq_some_iff {digits : List Char} {n : Nat} :
    decimal? digits = some n ↔
      (∀ c ∈ digits, c.isDigit = true) ∧ Nat.ofDigitChars 10 digits 0 = n := by
  have hdigit (c : Char) : ('0' ≤ c && c ≤ '9') = c.isDigit := by
    rw [Bool.eq_iff_iff, Char.isDigit_iff_toNat, Bool.and_eq_true, decide_eq_true_eq,
      decide_eq_true_eq]
    rfl
  simp only [decimal?, hdigit, List.all_eq_true, Option.ite_none_right_eq_some, Option.some.injEq,
    Nat.ofDigitChars_eq_foldl]

theorem IsNumber.stops {bound n : Nat} {digits : List Char} (h : IsNumber bound digits n)
    (rest : List Char) : Stops isBlank (digits ++ rest) :=
  h.run.stops (fun c hc => digit_not_blank c (isDigit_of_ascii c hc)) rest

/-- A number is the longest run of digits, and is read if it is below the bound. -/
theorem number?_eq_some_iff {bound n : Nat} {cs rest : List Char} :
    number? bound cs = some (n, rest) ↔ ∃ digits gap, cs = digits ++ (gap ++ rest) ∧
      IsNumber bound digits n ∧ (∀ c ∈ gap, isBlank c = true) ∧ Stops isBlank rest ∧
      Stops isDigit (gap ++ rest) := by
  constructor
  · intro h
    unfold number? at h
    split at h
    · simp at h
    · next hne =>
      split at h
      · next hvalue =>
        split at h
        · next hlt =>
          cases h
          have hrest : (cs.dropWhile isDigit).takeWhile isBlank ++
              trimStart (cs.dropWhile isDigit) = cs.dropWhile isDigit :=
            List.takeWhile_append_dropWhile
          refine ⟨cs.takeWhile isDigit, (cs.dropWhile isDigit).takeWhile isBlank, ?_,
            ⟨⟨hne, (decimal?_eq_some_iff.1 hvalue).1⟩, (decimal?_eq_some_iff.1 hvalue).2, hlt⟩,
            fun _ => List.mem_takeWhile_imp, stops_dropWhile isBlank _, ?_⟩
          · rw [hrest, List.takeWhile_append_dropWhile]
          · rw [hrest]
            exact stops_dropWhile isDigit cs
        · simp at h
      · simp at h
  · intro hx
    obtain ⟨digits, gap, rfl, ⟨⟨hne, hascii⟩, hvalue, hlt⟩, hgap, hrest, hstop⟩ := hx
    have hdigits : ∀ c ∈ digits, isDigit c = true := fun c hc => isDigit_of_ascii c (hascii c hc)
    unfold number?
    rw [takeWhile_run hdigits hstop, dropWhile_run hdigits hstop]
    split
    · exact absurd rfl hne
    · rw [decimal?_eq_some_iff.2 ⟨hascii, hvalue⟩]
      simp only [if_pos hlt]
      rw [trimStart_blank hgap, trimStart_eq_self hrest]

/-- A field ends in a default or without one, and in a semicolon. -/
theorem fieldEnd?_eq_some_iff {cs : List Char} {default : Option Bool} :
    fieldEnd? cs = some default ↔ ∃ ending, cs = ending ++ [';'] ∧ IsDefault ending default := by
  unfold fieldEnd?
  constructor
  · intro h
    split at h
    · next hcs =>
      cases h
      exact ⟨[], hcs, .absent⟩
    · split at h
      · next hcs =>
        cases h
        exact ⟨"[default = true]".toList, hcs, .yes⟩
      · split at h
        · next hcs =>
          cases h
          exact ⟨"[default = false]".toList, hcs, .no⟩
        · simp at h
  · intro hx
    obtain ⟨ending, rfl, hending⟩ := hx
    cases hending <;> rfl

theorem IsDefault.stops {ending : List Char} {default : Option Bool}
    (h : IsDefault ending default) :
    Stops isBlank (ending ++ [';']) ∧ Stops isDigit (ending ++ [';']) := by
  cases h with
  | absent => exact ⟨stops_cons.2 semicolon_stops.1, stops_cons.2 semicolon_stops.2⟩
  | yes => exact ⟨stops_cons.2 bracket_stops.1, stops_cons.2 bracket_stops.2⟩
  | no => exact ⟨stops_cons.2 bracket_stops.1, stops_cons.2 bracket_stops.2⟩

/-! ### Fields and items -/

/-- What follows the equals sign is read in one way. -/
theorem fieldWith?_eq_some_iff {cardinality : Option Cardinality} {typeName name : String}
    {value : List Char} {f : Field} :
    fieldWith? cardinality typeName name value = some f ↔ ∃ index default,
      IsValue value index default ∧ f = .declare cardinality typeName name index default := by
  unfold fieldWith?
  constructor
  · intro h
    obtain ⟨⟨index, rest⟩, hnumber, hrest⟩ := Option.bind_eq_some_iff.1 h
    obtain ⟨default, hend, hf⟩ := Option.bind_eq_some_iff.1 hrest
    obtain ⟨digits, gap, rfl, hdigits, hgap, -, -⟩ := number?_eq_some_iff.1 hnumber
    obtain ⟨ending, rfl, hending⟩ := fieldEnd?_eq_some_iff.1 hend
    cases hf
    exact ⟨index, default, .intro hdigits hgap hending, rfl⟩
  · intro hx
    obtain ⟨index, default, hvalue, rfl⟩ := hx
    obtain ⟨hdigits, hgap, hending⟩ := hvalue
    have hstop := stops_append hgap (fun c hc => (blank_outside hc).2) hending.stops.2
    have hnumber := number?_eq_some_iff.2 ⟨_, _, rfl, hdigits, hgap, hending.stops.1, hstop⟩
    have hend := fieldEnd?_eq_some_iff.2 ⟨_, rfl, hending⟩
    exact Option.bind_eq_some_iff.2 ⟨_, hnumber, Option.bind_eq_some_iff.2 ⟨_, hend, rfl⟩⟩

theorem IsValue.stops {value : List Char} {index : Nat} {default : Option Bool}
    (h : IsValue value index default) : Stops isBlank value := by
  obtain ⟨hnumber, -, -⟩ := h
  exact hnumber.stops _

/-- A word stands for a cardinality if it is its keyword. -/
theorem ofKeyword?_eq_some_iff {word : String} {c : Cardinality} :
    Cardinality.ofKeyword? word = some c ↔ word = c.keyword := by
  constructor
  · intro h
    have := List.find?_some h
    exact (beq_iff_eq.1 this).symm
  · intro heq
    subst heq
    cases c <;> decide

theorem keyword_run (c : Cardinality) : Run isWord c.keyword.toList := by
  constructor
  · cases c <;> decide
  · apply List.all_eq_true.1
    cases c <;> decide +kernel

theorem isField_of_field? {text : String} {f : Field} (h : field? text.toList = some f) :
    IsField text f := by
  unfold field? at h
  obtain ⟨⟨first, rest₁⟩, hword₁, h₁⟩ := Option.bind_eq_some_iff.1 h
  obtain ⟨rest₂, hafter₁, h₂⟩ := Option.bind_eq_some_iff.1 h₁
  obtain ⟨⟨second, rest₃⟩, hword₂, h₃⟩ := Option.bind_eq_some_iff.1 h₂
  obtain ⟨htext, hfirst, -⟩ := word?_eq_some_iff.1 hword₁
  obtain ⟨gap, rfl, hgap, -⟩ := afterGap?_eq_some_iff.1 hafter₁
  obtain ⟨rfl, hsecond, -⟩ := word?_eq_some_iff.1 hword₂
  simp only at h₃
  split at h₃
  · next value hafter₂ =>
    obtain ⟨equals, rfl, hequals, -⟩ := afterEquals?_eq_some_iff.1 hafter₂
    obtain ⟨index, default, hvalue, rfl⟩ := fieldWith?_eq_some_iff.1 h₃
    have := IsField.intro htext .absent hfirst hgap hsecond hequals hvalue
    simpa only [String.ofList_toList] using this
  · obtain ⟨c, hc, h₄⟩ := Option.bind_eq_some_iff.1 h₃
    obtain ⟨rest₄, hafter₂, h₅⟩ := Option.bind_eq_some_iff.1 h₄
    obtain ⟨⟨third, rest₅⟩, hword₃, h₆⟩ := Option.bind_eq_some_iff.1 h₅
    obtain ⟨value, hafter₃, h₇⟩ := Option.bind_eq_some_iff.1 h₆
    obtain ⟨gap', rfl, hgap', -⟩ := afterGap?_eq_some_iff.1 hafter₂
    obtain ⟨rfl, hthird, -⟩ := word?_eq_some_iff.1 hword₃
    obtain ⟨equals, rfl, hequals, -⟩ := afterEquals?_eq_some_iff.1 hafter₃
    obtain ⟨index, default, hvalue, rfl⟩ := fieldWith?_eq_some_iff.1 h₇
    obtain rfl := ofKeyword?_eq_some_iff.1 hc
    rw [← List.append_assoc] at htext
    have := IsField.intro htext (.word c hgap) hsecond hgap' hthird hequals hvalue
    simpa only [String.ofList_toList] using this

theorem field?_of_isField {text : String} {f : Field} (h : IsField text f) :
    field? text.toList = some f := by
  unfold field?
  obtain ⟨htext, hlead, htype, hgap, hname, hequals, hvalue⟩ := h
  have hword rest := word?_run htype (hgap.stops (fun c hc => (blank_outside hc).1) rest)
  have hafter rest := afterGap?_run hgap (hname.stops word_not_blank rest)
  have hword' rest := word?_run hname (hequals.stops_word rest)
  have hafter' := afterEquals?_eq_some_iff.2 ⟨_, rfl, hequals, hvalue.stops⟩
  cases hlead with
  | absent =>
    rw [htext, List.nil_append, hword]
    simp only [Option.bind_eq_bind, Option.bind_some, hafter, hword', hafter']
    exact fieldWith?_eq_some_iff.2 ⟨_, _, hvalue, rfl⟩
  | word c hlead =>
    have hkeyword rest := word?_run (keyword_run c)
      (hlead.stops (fun c hc => (blank_outside hc).1) rest)
    have hafterLead rest := afterGap?_run hlead (htype.stops word_not_blank rest)
    rw [htext, List.append_assoc, hkeyword]
    simp only [Option.bind_eq_bind, Option.bind_some, hafterLead, hword,
      afterEquals?_eq_none hgap hname, ofKeyword?_eq_some_iff.2 String.ofList_toList,
      hafter, hword', hafter']
    exact fieldWith?_eq_some_iff.2 ⟨_, _, hvalue, rfl⟩

/-- **A line is read as a field exactly if it has the form of one.** -/
theorem field?_eq_some_iff {text : String} {f : Field} :
    field? text.toList = some f ↔ IsField text f :=
  ⟨isField_of_field?, field?_of_isField⟩

/-- And as an item exactly if it has the form of one. -/
theorem item?_eq_some_iff {text : String} {i : Item} :
    item? text.toList = some i ↔ IsItem text i := by
  unfold item?
  constructor
  · intro h
    obtain ⟨⟨name, rest₁⟩, hword, h₁⟩ := Option.bind_eq_some_iff.1 h
    obtain ⟨rest₂, hafter, h₂⟩ := Option.bind_eq_some_iff.1 h₁
    obtain ⟨⟨index, rest₃⟩, hnumber, h₃⟩ := Option.bind_eq_some_iff.1 h₂
    obtain ⟨htext, hname, -⟩ := word?_eq_some_iff.1 hword
    obtain ⟨equals, rfl, hequals, -⟩ := afterEquals?_eq_some_iff.1 hafter
    obtain ⟨digits, gap, rfl, hdigits, hgap, -, -⟩ := number?_eq_some_iff.1 hnumber
    simp only at h₃
    split at h₃
    · next hrest =>
      cases h₃
      rw [hrest] at htext
      have := IsItem.intro htext hname hequals hdigits hgap
      simpa only [String.ofList_toList] using this
    · simp at h₃
  · intro h
    obtain ⟨htext, hname, hequals, hdigits, hgap⟩ := h
    have hstop : Stops isBlank [';'] := stops_cons.2 semicolon_stops.1
    have hstop' := stops_append hgap (fun c hc => (blank_outside hc).2)
      (stops_cons.2 semicolon_stops.2 : Stops isDigit [';'])
    have hword rest := word?_run hname (hequals.stops_word rest)
    have hafter rest := afterEquals?_eq_some_iff.2
      ⟨_, rfl, hequals, hdigits.stops rest⟩
    have hnumber := number?_eq_some_iff.2 ⟨_, _, rfl, hdigits, hgap, hstop, hstop'⟩
    rw [htext, hword]
    simp only [Option.bind_eq_bind, Option.bind_some, hafter, hnumber]
    exact if_pos rfl

/-! ### Blocks -/

/-- A gap with a character to spare holds the empty name. -/
theorem isBetween_blank {inner : List Char} {x : Char} (hblank : ∀ c ∈ inner, isBlank c = true)
    (hmem : x ∈ inner.tail.dropLast) (hx : x ≠ '\n') : IsBetween inner "" := by
  cases inner with
  | nil => simp at hmem
  | cons first rest =>
    rcases List.eq_nil_or_concat rest with rfl | ⟨mid, last, rfl⟩
    · simp at hmem
    · rw [List.concat_eq_append, List.tail_cons, List.dropLast_concat] at hmem
      obtain ⟨before, after, rfl⟩ := List.append_of_mem hmem
      rw [List.concat_eq_append] at hblank ⊢
      have htrim : trim [x] = [] := by
        rw [trim_eq_nil_iff]
        intro c hc
        exact hblank c (by simp_all)
      refine ⟨first :: before, [x], after ++ [last], by simp, ⟨by simp, ?_⟩,
        ⟨by simp, by simpa using hx⟩, ⟨by simp, ?_⟩, by rw [htrim]⟩
      · intro c hc
        exact hblank c (by simp at hc; rcases hc with rfl | hc <;> simp [*])
      · intro c hc
        exact hblank c (by simp at hc; rcases hc with hc | rfl <;> simp [*])

/-- Between two gaps, what trimming leaves is the name. -/
theorem isBetween_trim {inner : List Char} (hhead : inner.head?.any isBlank = true)
    (hlast : inner.getLast?.any isBlank = true) (hne : trim inner ≠ [])
    (hnl : '\n' ∉ trim inner) : IsBetween inner (.ofList (trim inner)) := by
  obtain ⟨gap, gap', hinner, hgap, hgap'⟩ := exists_trim inner
  have htrim : trim (trim inner) = trim inner := by
    have hblank : trim (gap ++ trim inner ++ gap') = trim (trim inner) := trim_blank hgap hgap'
    rwa [← hinner, eq_comm] at hblank
  refine ⟨gap, trim inner, gap', hinner, ⟨?_, hgap⟩, ⟨hne, ?_⟩, ⟨?_, hgap'⟩, by rw [htrim]⟩
  · intro heq
    subst heq
    obtain ⟨c, rest, hc⟩ := List.exists_cons_of_ne_nil hne
    have hstop := stops_trim inner
    rw [hc] at hinner hstop
    rw [hinner] at hhead
    simp [stops_cons.1 hstop] at hhead
  · intro c hc
    simp only [ne_eq, decide_not, Bool.not_eq_true', decide_eq_false_iff_not]
    intro heq
    subst heq
    exact hnl hc
  · intro heq
    subst heq
    obtain ⟨c, hc⟩ := Option.ne_none_iff_exists'.1 (mt List.getLast?_eq_none_iff.1 hne)
    rw [hinner, List.append_nil, List.getLast?_append, hc] at hlast
    simp [last_trim hc] at hlast

theorem isBetween_of_nameBetween? {inner : List Char} {name : String}
    (h : nameBetween? inner = some name) : IsBetween inner name := by
  unfold nameBetween? at h
  split at h
  · next hends =>
    obtain ⟨hhead, hlast⟩ := Bool.and_eq_true_iff.1 hends
    split at h
    · next htrim =>
      split at h
      · next hany =>
        cases h
        obtain ⟨x, hx, hnl⟩ := List.any_eq_true.1 hany
        exact isBetween_blank (trim_eq_nil_iff.1 htrim) hx (of_decide_eq_true hnl)
      · simp at h
    · next hne =>
      split at h
      · simp at h
      · next hnl =>
        cases h
        exact isBetween_trim hhead hlast hne (by simpa using hnl)
  · simp at h

theorem nameBetween?_of_isBetween {inner : List Char} {name : String} (h : IsBetween inner name) :
    nameBetween? inner = some name := by
  unfold nameBetween?
  obtain ⟨gap, body, gap', rfl, ⟨hne, hgap⟩, ⟨hbody, hline⟩, ⟨hne', hgap'⟩, rfl⟩ := h
  obtain ⟨first, gap, rfl⟩ := List.exists_cons_of_ne_nil hne
  obtain ⟨gap', last, rfl⟩ := (List.eq_nil_or_concat gap').resolve_left hne'
  rw [List.concat_eq_append] at hgap' ⊢
  have hends : (first :: gap ++ body ++ (gap' ++ [last])).head?.any isBlank &&
      (first :: gap ++ body ++ (gap' ++ [last])).getLast?.any isBlank := by
    rw [← List.append_assoc, List.getLast?_concat]
    simp [hgap first List.mem_cons_self, hgap' last (by simp)]
  have hmid : (first :: gap ++ body ++ (gap' ++ [last])).tail.dropLast = gap ++ body ++ gap' := by
    rw [List.cons_append, List.cons_append, List.tail_cons, ← List.append_assoc,
      List.dropLast_concat]
  rw [if_pos hends, trim_blank hgap hgap']
  split
  · next htrim =>
    obtain ⟨x, body, rfl⟩ := List.exists_cons_of_ne_nil hbody
    have hany : (gap ++ x :: body ++ gap').any (· ≠ '\n') = true :=
      List.any_eq_true.2 ⟨x, by simp, hline x List.mem_cons_self⟩
    rw [hmid, if_pos hany, htrim]
  · rw [if_neg]
    intro hnl
    have := hline '\n' (mem_of_mem_trim (List.contains_iff_mem.1 hnl))
    simp at this

theorem nameBetween?_eq_some_iff {inner : List Char} {name : String} :
    nameBetween? inner = some name ↔ IsBetween inner name :=
  ⟨isBetween_of_nameBetween?, nameBetween?_of_isBetween⟩

/-- **A line opens a block exactly if it has the form of an opening line.** -/
theorem blockName?_eq_some_iff {kind : Kind} {text name : String} :
    blockName? kind text.toList = some name ↔ IsBlock kind text name := by
  unfold blockName?
  constructor
  · intro h
    split at h
    · next rest hafter =>
      split at h
      · next hlast =>
        obtain ⟨inner, rfl⟩ := List.getLast?_eq_some_iff.1 hlast
        rw [List.dropLast_concat] at h
        exact ⟨inner, after?_eq_some_iff.1 hafter, nameBetween?_eq_some_iff.1 h⟩
      · simp at h
    · simp at h
  · intro hx
    obtain ⟨inner, htext, hinner⟩ := hx
    rw [after?_eq_some_iff.2 htext]
    simp only [List.getLast?_concat, if_true, List.dropLast_concat]
    exact nameBetween?_eq_some_iff.2 hinner

/-! ### Packages -/

/-- How a cut divides the white space after the keyword and the line behind it. -/
theorem PackageCut.divides {rest gap body : List Char}
    (h : PackageCut ("package".toList ++ rest) gap body) :
    rest.takeWhile isBlank = gap ++ body.takeWhile isBlank ∧ ∃ tail,
      (rest.dropWhile isBlank).takeWhile (· ≠ '\n') = body.dropWhile isBlank ++ ';' :: tail := by
  obtain ⟨tail, htail⟩ := h.start
  have hrest : rest = gap ++ (body ++ ';' :: tail) := by
    rw [List.append_assoc] at htail
    simpa using (List.append_cancel_left htail).symm
  have hline : ∀ c ∈ body.dropWhile isBlank, decide (c ≠ '\n') = true := fun c hc =>
    h.name.2 c (List.dropWhile_subset isBlank hc)
  rw [hrest, List.takeWhile_append_of_pos h.gap.2, List.dropWhile_append_of_pos h.gap.2,
    takeWhile_append_cons semicolon_stops.1, dropWhile_append_cons semicolon_stops.1,
    List.takeWhile_append_of_pos hline]
  exact ⟨rfl, tail.takeWhile (· ≠ '\n'), by simp⟩

/-- The longest cut is the only one of its kind. -/
theorem IsPackage.unique {text name name' : String} (h : IsPackage text name)
    (h' : IsPackage text name') : name = name' := by
  obtain ⟨gap, body, hcut, rfl, hmax⟩ := h
  obtain ⟨gap', body', hcut', rfl, hmax'⟩ := h'
  obtain ⟨tail, htail⟩ := hcut.start
  obtain ⟨tail', htail'⟩ := hcut'.start
  have hlength := hmax gap' body' hcut'
  have hlength' := hmax' gap body hcut
  have heq : gap ++ (body ++ ([';'] ++ tail)) = gap' ++ (body' ++ ([';'] ++ tail')) := by
    rw [← htail', List.append_assoc, List.append_assoc] at htail
    simpa using List.append_cancel_left htail
  obtain ⟨-, heq⟩ := List.append_inj heq (by omega)
  rw [(List.append_inj heq (by omega)).1]

/-- What the reader finds if a line can be cut at all. Of the name, `k` characters are
taken for white space by the reader, and the others stand before the last semicolon. -/
theorem PackageCut.lengths {rest gap body : List Char}
    (h : PackageCut ("package".toList ++ rest) gap body) : ∃ before k,
      beforeLast ';' ((rest.dropWhile isBlank).takeWhile (· ≠ '\n')) = some before ∧
      gap.length + k = (rest.takeWhile isBlank).length ∧
      k ≤ body.length ∧ body.length ≤ k + before.length := by
  obtain ⟨hgap, tail, hline⟩ := h.divides
  obtain ⟨before, hbefore, hle⟩ := exists_beforeLast ';' (body.dropWhile isBlank) tail
  have hbody := congrArg List.length (List.takeWhile_append_dropWhile (p := isBlank) (l := body))
  rw [List.length_append] at hbody
  refine ⟨before, (body.takeWhile isBlank).length, ?_, ?_, by omega, by omega⟩
  · rw [hline, hbefore]
  · rw [hgap, List.length_append]

/-- What stands before the last semicolon stands in one line behind the gap. -/
theorem begins_of_beforeLast {rest before : List Char}
    (h : beforeLast ';' ((rest.dropWhile isBlank).takeWhile (· ≠ '\n')) = some before) :
    rest.takeWhile isBlank ++ (before ++ [';']) <+: rest ∧
      ∀ c ∈ before, decide (c ≠ '\n') = true := by
  obtain ⟨tail, hline⟩ := eq_of_beforeLast h
  constructor
  · have hbegin : before ++ [';'] <+: rest.dropWhile isBlank := by
      refine List.IsPrefix.trans ⟨tail, ?_⟩ (List.takeWhile_prefix (· ≠ '\n'))
      rw [hline, List.append_assoc, List.singleton_append]
    have hgap := (List.prefix_append_right_inj (rest.takeWhile isBlank)).2 hbegin
    rwa [List.takeWhile_append_dropWhile] at hgap
  · intro c hc
    exact List.mem_takeWhile_imp (p := (· ≠ '\n')) (hline ▸ List.mem_append_left _ hc)

/-- The gap and what stands before the last semicolon are the longest cut. -/
theorem isPackage_named {text : String} {rest before : List Char}
    (htext : text.toList = "package".toList ++ rest) (hgap : rest.takeWhile isBlank ≠ [])
    (hbefore : beforeLast ';' ((rest.dropWhile isBlank).takeWhile (· ≠ '\n')) = some before)
    (hne : before ≠ []) : IsPackage text (.ofList (trim before)) := by
  obtain ⟨hbegin, hline⟩ := begins_of_beforeLast hbefore
  refine ⟨rest.takeWhile isBlank, before,
    ⟨?_, ⟨hgap, fun _ => List.mem_takeWhile_imp⟩, ⟨hne, hline⟩⟩, rfl, ?_⟩
  · rw [htext]
    exact (List.prefix_append_right_inj _).2 hbegin
  · intro gap' body' hcut
    rw [htext] at hcut
    obtain ⟨before', k, hbefore', hk, -, hbody⟩ := hcut.lengths
    rw [hbefore] at hbefore'
    cases hbefore'
    omega

/-- If nothing stands before the last semicolon, the gap gives its last character away. -/
theorem isPackage_blank {text : String} {rest gap : List Char} {x : Char}
    (htext : text.toList = "package".toList ++ rest)
    (hgap : rest.takeWhile isBlank = gap ++ [x]) (hne : gap ≠ []) (hx : x ≠ '\n')
    (hbefore : beforeLast ';' ((rest.dropWhile isBlank).takeWhile (· ≠ '\n')) = some []) :
    IsPackage text "" := by
  have hblank : ∀ c ∈ gap ++ [x], isBlank c = true := fun c hc =>
    List.mem_takeWhile_imp (hgap ▸ hc)
  have htrim : trim [x] = [] := trim_eq_nil_iff.2 fun c hc => hblank c (by simp_all)
  obtain ⟨hbegin, -⟩ := begins_of_beforeLast hbefore
  refine ⟨gap, [x], ⟨?_, ⟨hne, fun c hc => hblank c (by simp [hc])⟩, ⟨by simp, ?_⟩⟩,
    by rw [htrim], ?_⟩
  · rw [hgap, List.append_assoc] at hbegin
    rw [htext]
    exact (List.prefix_append_right_inj _).2 hbegin
  · simpa using hx
  · intro gap' body' hcut
    rw [htext] at hcut
    have hpos := List.length_pos_iff.2 hcut.name.1
    obtain ⟨before, k, hbefore', hk, -, hbody⟩ := hcut.lengths
    rw [hbefore] at hbefore'
    cases hbefore'
    rw [hgap, List.length_append, List.length_singleton] at hk
    rw [List.length_nil] at hbody
    rw [List.length_singleton]
    omega

theorem isPackage_of_packageName? {text name : String}
    (h : packageName? text.toList = some name) : IsPackage text name := by
  unfold packageName? at h
  split at h
  · simp at h
  · next rest hafter =>
    have htext := after?_eq_some_iff.1 hafter
    simp only at h
    split at h
    · simp at h
    · simp at h
    · next hbefore hgap =>
      split at h
      · next hends =>
        cases h
        obtain ⟨gap, x, hconcat⟩ :=
          (List.eq_nil_or_concat (rest.takeWhile isBlank)).resolve_left hgap
        rw [List.concat_eq_append] at hconcat
        simp only [hconcat, List.length_append, List.length_singleton, List.getLast?_concat,
          Bool.and_eq_true, decide_eq_true_eq, ne_eq, Option.some.injEq] at hends
        have hne : gap ≠ [] := by
          intro heq
          subst heq
          simp at hends
        exact isPackage_blank htext hconcat hne hends.2 hbefore
      · simp at h
    · next before hne hbefore hgap =>
      cases h
      exact isPackage_named htext hgap hbefore hne

/-- A line that can be cut is read as a package line. -/
theorem PackageCut.isSome {cs gap body : List Char} (h : PackageCut cs gap body) :
    (packageName? cs).isSome := by
  obtain ⟨rest, rfl⟩ : ∃ rest, cs = "package".toList ++ rest := by
    obtain ⟨tail, htail⟩ := h.start
    exact ⟨_, by rw [← htail, List.append_assoc]⟩
  have hgap := List.length_pos_iff.2 h.gap.1
  have hname := List.length_pos_iff.2 h.name.1
  obtain ⟨before, k, hbefore, hk, hle, hbody⟩ := h.lengths
  unfold packageName?
  rw [after?_eq_some_iff.2 rfl]
  simp only
  split
  · next hnil =>
    rw [hnil, List.length_nil] at hk
    omega
  · next hnone _ =>
    rw [hbefore] at hnone
    cases hnone
  · next hempty _ =>
    -- All of the name is white space, so the gap ends with its last character.
    rw [hbefore] at hempty
    cases hempty
    rw [List.length_nil] at hbody
    have hdivides := h.divides.1
    have hall : body.takeWhile isBlank = body := by
      apply (List.takeWhile_prefix isBlank).eq_of_length
      rw [hdivides, List.length_append] at hk
      omega
    obtain ⟨c, hc⟩ := Option.ne_none_iff_exists'.1 (mt List.getLast?_eq_none_iff.1 h.name.1)
    have hnl := h.name.2 c (List.mem_of_getLast? hc)
    have hlast : (rest.takeWhile isBlank).getLast? = some c := by
      rw [hdivides, hall, List.getLast?_append, hc]
      rfl
    have htwo : 2 ≤ (rest.takeWhile isBlank).length := by omega
    simp_all
  · rfl

/-- **A line names a package exactly if it has the form of a package line**, cut as far right as
it can be. -/
theorem packageName?_eq_some_iff {text name : String} :
    packageName? text.toList = some name ↔ IsPackage text name := by
  refine ⟨isPackage_of_packageName?, fun h => ?_⟩
  obtain ⟨gap, body, hcut, -⟩ := id h
  obtain ⟨name', hname'⟩ := Option.isSome_iff_exists.1 hcut.isSome
  rw [hname', (isPackage_of_packageName? hname').unique h]

/-! ### Telling forms apart

The forms of one scope differ in their first or their last character. -/

theorem after?_isSome_iff {start cs : List Char} : (after? start cs).isSome ↔ start <+: cs := by
  rw [Option.isSome_iff_exists]
  simp only [after?_eq_some_iff]
  exact exists_congr fun rest => eq_comm

theorem IsPackage.starts {text name : String} (h : IsPackage text name) :
    ∃ rest, text.toList = 'p' :: rest := by
  obtain ⟨gap, body, hcut, -⟩ := h
  obtain ⟨tail, htail⟩ := hcut.start
  exact ⟨_, htail.symm⟩

theorem IsBlock.starts {kind : Kind} {text name : String} (h : IsBlock kind text name) :
    ∃ rest, text.toList = (match kind with | .message => 'm' | .enumeration => 'e') :: rest := by
  obtain ⟨inner, htext, -⟩ := h
  cases kind <;> exact ⟨_, htext⟩

/-- An opening line ends in its brace, so it is no field and no item. -/
theorem IsBlock.ends {kind : Kind} {text name : String} (h : IsBlock kind text name) :
    text.toList.getLast? = some '\x7b' := by
  obtain ⟨inner, htext, -⟩ := h
  rw [htext, ← List.append_assoc, List.getLast?_concat]

/-- A field ends in its semicolon, so it opens nothing. -/
theorem IsField.ends {text : String} {f : Field} (h : IsField text f) :
    text.toList.getLast? = some ';' := by
  obtain ⟨htext, -, -, -, -, -, hvalue⟩ := h
  obtain ⟨-, -, -⟩ := hvalue
  simp only [htext, ← List.append_assoc, List.getLast?_concat]

theorem IsItem.ends {text : String} {i : Item} (h : IsItem text i) :
    text.toList.getLast? = some ';' := by
  obtain ⟨htext, -, -, -, -⟩ := h
  simp only [htext, ← List.append_assoc, List.getLast?_concat]

theorem IsField.stops {text : String} {f : Field} (h : IsField text f) :
    Stops isBlank text.toList := by
  obtain ⟨htext, hlead, htype, -, -, -, -⟩ := h
  rw [htext]
  cases hlead with
  | absent => exact htype.stops word_not_blank _
  | word c _ =>
    rw [List.append_assoc]
    exact (keyword_run c).stops word_not_blank _

theorem IsItem.stops {text : String} {i : Item} (h : IsItem text i) :
    Stops isBlank text.toList := by
  obtain ⟨htext, hname, -, -, -⟩ := h
  rw [htext]
  exact hname.stops word_not_blank _

theorem blockName?_eq_none {kind : Kind} {text : String}
    (h : text.toList.getLast? ≠ some '\x7b') : blockName? kind text.toList = none := by
  cases hname : blockName? kind text.toList with
  | none => rfl
  | some name => exact absurd (blockName?_eq_some_iff.1 hname).ends h

end Spelling

open Spelling Statement

/-! ### Statements -/

/-- The forms of the statements at file scope. -/
inductive FileStatement.Spelled (text : String) : FileStatement → Prop where
  | ignored (h : IsIgnored text) : Spelled text .ignored
  | package {name : String} (h : IsPackage text name) : Spelled text (.package name)
  | openMessage {name : String} (h : IsBlock .message text name) : Spelled text (.openMessage name)

/-- The forms of the statements inside a message. -/
inductive MessageStatement.Spelled (text : String) : MessageStatement → Prop where
  | close (h : text = "\x7d") : Spelled text .close
  | openEnum {name : String} (h : IsBlock .enumeration text name) : Spelled text (.openEnum name)
  | openMessage {name : String} (h : IsBlock .message text name) : Spelled text (.openMessage name)
  | field {f : Field} (h : IsField text f) : Spelled text (.field f)

/-- The forms of the statements inside an enum. -/
inductive EnumStatement.Spelled (text : String) : EnumStatement → Prop where
  | close (h : text = "\x7d") : Spelled text .close
  | item {i : Item} (h : IsItem text i) : Spelled text (.item i)

/-- **At file scope a line is read by its form**, the forms in their order. -/
theorem FileStatement.read?_eq_some_iff {text : String} {statement : FileStatement} :
    FileStatement.read? text = some statement ↔ FileStatement.Spelled text statement := by
  unfold FileStatement.read?
  simp only [Bool.or_eq_true, after?_isSome_iff]
  constructor
  · intro h
    split at h
    · next hignored =>
      cases h
      exact .ignored hignored
    · split at h
      · next name hname =>
        cases h
        exact .package (packageName?_eq_some_iff.1 hname)
      · obtain ⟨name, hname, rfl⟩ := Option.map_eq_some_iff.1 h
        exact .openMessage (blockName?_eq_some_iff.1 hname)
  · intro h
    cases h with
    | ignored h => exact if_pos h
    | package h =>
      obtain ⟨rest, hrest⟩ := h.starts
      rw [if_neg (by simp [hrest]), packageName?_eq_some_iff.2 h]
    | openMessage h =>
      obtain ⟨rest, hrest⟩ := h.starts
      have hpackage : packageName? text.toList = none := by
        rw [hrest]
        rfl
      rw [if_neg (by simp [hrest]), hpackage, blockName?_eq_some_iff.2 h]
      rfl

/-- **So it is in a message.** -/
theorem MessageStatement.read?_eq_some_iff {text : String} {statement : MessageStatement} :
    MessageStatement.read? text = some statement ↔ MessageStatement.Spelled text statement := by
  unfold MessageStatement.read?
  simp only
  constructor
  · intro h
    split at h
    · next hclose =>
      cases h
      exact .close (String.toList_inj.1 hclose)
    · split at h
      · next name hname =>
        cases h
        exact .openEnum (blockName?_eq_some_iff.1 hname)
      · next name _ hname =>
        cases h
        exact .openMessage (blockName?_eq_some_iff.1 hname)
      · obtain ⟨f, hf, rfl⟩ := Option.map_eq_some_iff.1 h
        exact .field (field?_eq_some_iff.1 hf)
  · intro h
    cases h with
    | close h => rw [h]; rfl
    | openEnum h =>
      obtain ⟨rest, hrest⟩ := h.starts
      rw [if_neg (by simp [hrest]), blockName?_eq_some_iff.2 h]
    | openMessage h =>
      obtain ⟨rest, hrest⟩ := h.starts
      have henum : blockName? .enumeration text.toList = none := by
        rw [hrest]
        rfl
      rw [if_neg (by simp [hrest]), henum, blockName?_eq_some_iff.2 h]
    | field h =>
      have hends := h.ends
      have hclose : text.toList ≠ ['\x7d'] := by
        intro hclose
        simp [hclose] at hends
      rw [if_neg hclose, blockName?_eq_none (by simp [hends]), blockName?_eq_none (by simp [hends]),
        field?_eq_some_iff.2 h]
      rfl

/-- **And so in an enum.** -/
theorem EnumStatement.read?_eq_some_iff {text : String} {statement : EnumStatement} :
    EnumStatement.read? text = some statement ↔ EnumStatement.Spelled text statement := by
  unfold EnumStatement.read?
  simp only
  constructor
  · intro h
    split at h
    · next hclose =>
      cases h
      exact .close (String.toList_inj.1 hclose)
    · obtain ⟨i, hi, rfl⟩ := Option.map_eq_some_iff.1 h
      exact .item (item?_eq_some_iff.1 hi)
  · intro h
    cases h with
    | close h => rw [h]; rfl
    | item h =>
      have hends := h.ends
      have hclose : text.toList ≠ ['\x7d'] := by
        intro hclose
        simp [hclose] at hends
      rw [if_neg hclose, item?_eq_some_iff.2 h]
      rfl

end SwiftWrap
