import SwiftWrap.Proofs.Blame

/-! The reading of a field's line.

Three words may stand in a field's line, of which the first is a keyword, or two; and a word of
the two may be a keyword too. A line that is cut into its pieces (`FieldLine`) can be put together
again, and no two cuts give one line (`FieldLine.text_inj`): every piece ends where its class of
characters ends, and between the last two words of a line there is no equals sign, while behind
its last word there is one.

`FieldLine.read_once` says what becomes of such a line in a message, and that no other line is
taken for a field. -/
namespace SwiftWrap
open Text Spelling

/-- A run of a class of characters. -/
abbrev RunOf (p : Char → Bool) := {cs : List Char // Run p cs}

/-- White space, or nothing. -/
abbrev Spaces := {cs : List Char // ∀ c ∈ cs, isBlank c = true}

/-- A field's line in pieces. -/
structure FieldLine where
  /-- The keyword in front of the type, with the white space behind it. -/
  lead : Option (Cardinality × RunOf isBlank)
  type : RunOf isWord
  gap : RunOf isBlank
  name : RunOf isWord
  before : Spaces
  behind : Spaces
  digits : RunOf isDigit
  space : Spaces
  default : Option Bool

namespace FieldLine

/-- A default value, if there is one. -/
def defaultChars : Option Bool → List Char
  | none => []
  | some true => "[default = true]".toList
  | some false => "[default = false]".toList

/-- The keyword in front of the type. -/
def leadChars : Option (Cardinality × RunOf isBlank) → List Char
  | none => []
  | some (cardinality, gap) => cardinality.keyword.toList ++ gap.1

/-- The end of the line, from its number on. -/
def value (l : FieldLine) : List Char :=
  l.digits.1 ++ (l.space.1 ++ (defaultChars l.default ++ [';']))

/-- The equals sign in the white space around it. -/
def equals (l : FieldLine) : List Char := l.before.1 ++ '=' :: l.behind.1

/-- The line without its keyword. -/
def body (l : FieldLine) : List Char :=
  l.type.1 ++ (l.gap.1 ++ (l.name.1 ++ (l.equals ++ l.value)))

/-- The line. -/
def text (l : FieldLine) : String := .ofList (leadChars l.lead ++ l.body)

/-- What the number counts to. -/
def index (l : FieldLine) : Nat := Nat.ofDigitChars 10 l.digits.1 0

/-- The number is written in ASCII, and 32 bits hold it. -/
def Numbered (l : FieldLine) : Prop :=
  (∀ c ∈ l.digits.1, c.isDigit = true) ∧ l.index ≤ 4294967295

instance (l : FieldLine) : Decidable l.Numbered :=
  decidable_of_iff (l.digits.1.all Char.isDigit = true ∧ l.index ≤ 4294967295)
    (and_congr_left' List.all_eq_true)

/-- The field that the pieces stand for. -/
def field (l : FieldLine) : Field :=
  .declare (l.lead.map (·.1)) (.ofList l.type.1) (.ofList l.name.1) l.index l.default

/-- The line with more zeros in front of its number. -/
def padded (l : FieldLine) (zeros : Nat) : FieldLine :=
  { l with
    digits := ⟨List.replicate zeros '0' ++ l.digits.1, by simp [l.digits.2.1], by
      intro c hc
      rcases List.mem_append.1 hc with hc | hc
      · rw [List.eq_of_mem_replicate hc]
        exact isDigit_of_ascii '0' rfl
      · exact l.digits.2.2 c hc⟩ }

/-! ### One cut for a line -/

/-- Runs of one class are the same if what follows them is outside it. -/
theorem run_append_inj {p : Char → Bool} {xs ys rest rest' : List Char}
    (hxs : ∀ c ∈ xs, p c = true) (hys : ∀ c ∈ ys, p c = true) (hrest : Stops p rest)
    (hrest' : Stops p rest') (h : xs ++ rest = ys ++ rest') : xs = ys ∧ rest = rest' := by
  have hrun := congrArg (List.takeWhile p) h
  rw [takeWhile_run hxs hrest, takeWhile_run hys hrest'] at hrun
  exact ⟨hrun, List.append_cancel_left (hrun ▸ h)⟩

/-- A default is written in one way. -/
theorem isDefault_iff {cs : List Char} {default : Option Bool} :
    IsDefault cs default ↔ cs = defaultChars default := by
  constructor
  · intro h
    cases h <;> rfl
  · rintro rfl
    match default with
    | none => exact .absent
    | some true => exact .yes
    | some false => exact .no

theorem defaultChars_inj {a b : Option Bool} (h : defaultChars a = defaultChars b) : a = b := by
  have hread (default : Option Bool) :
      Statement.fieldEnd? (defaultChars default ++ [';']) = some default :=
    fieldEnd?_eq_some_iff.2 ⟨_, rfl, isDefault_iff.2 rfl⟩
  have ha := hread a
  rw [h, hread b] at ha
  exact (Option.some.inj ha).symm

theorem stops_default (default : Option Bool) :
    Stops isBlank (defaultChars default ++ [';']) ∧ Stops isDigit (defaultChars default ++ [';']) :=
  (isDefault_iff.2 rfl).stops

variable {l l' : FieldLine}

/-- Digits, gap and default are told apart by the classes of their characters. -/
theorem value_inj (h : l.value = l'.value) :
    l.digits = l'.digits ∧ l.space = l'.space ∧ l.default = l'.default := by
  have hstops (l : FieldLine) : Stops isDigit (l.space.1 ++ (defaultChars l.default ++ [';'])) :=
    stops_append l.space.2 (fun _ hc => (blank_outside hc).2) (stops_default _).2
  obtain ⟨hdigits, h⟩ :=
    run_append_inj l.digits.2.2 l'.digits.2.2 (hstops l) (hstops l') h
  obtain ⟨hspace, h⟩ :=
    run_append_inj l.space.2 l'.space.2 (stops_default _).1 (stops_default _).1 h
  exact ⟨Subtype.ext hdigits, Subtype.ext hspace, defaultChars_inj (List.append_cancel_right h)⟩

theorem stops_value (l : FieldLine) : Stops isBlank l.value :=
  l.digits.2.stops digit_not_blank _

theorem isEquals (l : FieldLine) : IsEquals l.equals :=
  ⟨l.before.1, l.behind.1, rfl, l.before.2, l.behind.2⟩

theorem equals_inj (h : l.equals ++ l.value = l'.equals ++ l'.value) :
    l.before = l'.before ∧ l.behind = l'.behind ∧ l.value = l'.value := by
  have hsign (rest : List Char) : Stops isBlank ('=' :: rest) := stops_cons.2 equals_stops.2
  simp only [equals, List.append_assoc, List.cons_append] at h
  obtain ⟨hbefore, h⟩ := run_append_inj l.before.2 l'.before.2 (hsign _) (hsign _) h
  obtain ⟨hbehind, h⟩ := run_append_inj l.behind.2 l'.behind.2 l.stops_value l'.stops_value
    (List.cons_eq_cons.1 h).2
  exact ⟨Subtype.ext hbefore, Subtype.ext hbehind, h⟩

/-- A word and the gap behind it. -/
theorem word_gap_inj (word word' : RunOf isWord) {gap gap' : RunOf isBlank} {rest rest' : List Char}
    (hrest : Stops isBlank rest) (hrest' : Stops isBlank rest')
    (h : word.1 ++ (gap.1 ++ rest) = word'.1 ++ (gap'.1 ++ rest')) :
    word = word' ∧ gap = gap' ∧ rest = rest' := by
  have hstops (gap : RunOf isBlank) (rest : List Char) : Stops isWord (gap.1 ++ rest) :=
    gap.2.stops (fun _ hc => (blank_outside hc).1) rest
  obtain ⟨hword, h⟩ := run_append_inj word.2.2 word'.2.2 (hstops gap rest) (hstops gap' rest') h
  obtain ⟨hgap, h⟩ := run_append_inj gap.2.2 gap'.2.2 hrest hrest' h
  exact ⟨Subtype.ext hword, Subtype.ext hgap, h⟩

theorem stops_body (l : FieldLine) : Stops isBlank l.body :=
  l.type.2.stops word_not_blank _

theorem body_inj (h : l.body = l'.body) : l.type = l'.type ∧ l.gap = l'.gap ∧ l.name = l'.name ∧
    l.equals ++ l.value = l'.equals ++ l'.value := by
  obtain ⟨htype, hgap, h⟩ := word_gap_inj l.type l'.type (l.name.2.stops word_not_blank _)
    (l'.name.2.stops word_not_blank _) h
  obtain ⟨hname, h⟩ := run_append_inj l.name.2.2 l'.name.2.2 (l.isEquals.stops_word _)
    (l'.isEquals.stops_word _) h
  exact ⟨htype, hgap, Subtype.ext hname, h⟩

/-- A word in front of a line makes three words, and no line without a keyword has three. -/
theorem word_body_ne (word : RunOf isWord) (gap : RunOf isBlank) (l l' : FieldLine) :
    word.1 ++ (gap.1 ++ l.body) ≠ l'.body := by
  intro h
  obtain ⟨-, -, h⟩ := word_gap_inj word l'.type l.stops_body (l'.name.2.stops word_not_blank _) h
  have hstops : Stops isWord (l.gap.1 ++ (l.name.1 ++ (l.equals ++ l.value))) :=
    l.gap.2.stops (fun _ hc => (blank_outside hc).1) _
  obtain ⟨-, h⟩ := run_append_inj l.type.2.2 l'.name.2.2 hstops (l'.isEquals.stops_word _) h
  have hnone : Statement.afterEquals? (l.gap.1 ++ (l.name.1 ++ (l.equals ++ l.value))) = none :=
    afterEquals?_eq_none l.gap.2 l.name.2
  rw [h, afterEquals?_eq_some_iff.2 ⟨_, rfl, l'.isEquals, l'.stops_value⟩] at hnone
  cases hnone

theorem keyword_inj {a b : Cardinality} (h : a.keyword.toList = b.keyword.toList) : a = b := by
  have ha := ofKeyword?_eq_some_iff.2 (String.toList_inj.1 h.symm)
  rw [ofKeyword?_eq_some_iff.2 rfl] at ha
  exact (Option.some.inj ha).symm

theorem lead_inj (h : leadChars l.lead ++ l.body = leadChars l'.lead ++ l'.body) :
    l.lead = l'.lead ∧ l.body = l'.body := by
  cases hlead : l.lead with
  | none =>
    cases hlead' : l'.lead with
    | none =>
      rw [hlead, hlead'] at h
      exact ⟨rfl, h⟩
    | some lead' =>
      rw [hlead, hlead', leadChars, leadChars, List.append_assoc] at h
      exact absurd h.symm (word_body_ne ⟨_, keyword_run lead'.1⟩ lead'.2 l' l)
  | some lead =>
    cases hlead' : l'.lead with
    | none =>
      rw [hlead, hlead', leadChars, leadChars, List.append_assoc] at h
      exact absurd h (word_body_ne ⟨_, keyword_run lead.1⟩ lead.2 l l')
    | some lead' =>
      rw [hlead, hlead', leadChars, leadChars, List.append_assoc, List.append_assoc] at h
      obtain ⟨hkeyword, hgap, hbody⟩ := word_gap_inj ⟨_, keyword_run lead.1⟩
        ⟨_, keyword_run lead'.1⟩ l.stops_body l'.stops_body h
      have hsame : lead.1 = lead'.1 := keyword_inj (Subtype.ext_iff.1 hkeyword)
      exact ⟨congrArg some (Prod.ext hsame hgap), hbody⟩

/-- **A line is cut in one way only.** -/
theorem text_inj (h : l.text = l'.text) : l = l' := by
  obtain ⟨hlead, h⟩ := lead_inj (String.ofList_inj.1 h)
  obtain ⟨htype, hgap, hname, h⟩ := body_inj h
  obtain ⟨hbefore, hbehind, h⟩ := equals_inj h
  obtain ⟨hdigits, hspace, hdefault⟩ := value_inj h
  cases l
  cases l'
  simp_all

/-! ### What is read -/

theorem isLead_iff {cs : List Char} {cardinality : Option Cardinality} :
    IsLead cs cardinality ↔ ∃ lead, cs = leadChars lead ∧ cardinality = lead.map (·.1) := by
  constructor
  · intro h
    cases h with
    | absent => exact ⟨none, rfl, rfl⟩
    | word c hgap => exact ⟨some (c, ⟨_, hgap⟩), rfl, rfl⟩
  · rintro ⟨lead, rfl, rfl⟩
    match lead with
    | none => exact .absent
    | some (c, gap) => exact .word c gap.2

theorem isNumber_iff (l : FieldLine) {n : Nat} :
    IsNumber 0x100000000 l.digits.1 n ↔ l.Numbered ∧ n = l.index := by
  constructor
  · rintro ⟨⟨-, hascii⟩, rfl, hlt⟩
    exact ⟨⟨hascii, Nat.le_of_lt_succ hlt⟩, rfl⟩
  · rintro ⟨⟨hascii, hle⟩, rfl⟩
    exact ⟨⟨l.digits.2.1, hascii⟩, rfl, Nat.lt_succ_of_le hle⟩

/-- **A line is a field exactly if it is a cut of one**, with a number below the bound. -/
theorem isField_iff {text : String} {f : Field} :
    IsField text f ↔ ∃ l : FieldLine, l.text = text ∧ l.Numbered ∧ f = l.field := by
  constructor
  · rintro @⟨_, _, _, _, _, _, _, _, default, htext, hlead, htype, hgap, hname, hequals, hvalue⟩
    obtain ⟨before, behind, rfl, hbefore, hbehind⟩ := hequals
    obtain ⟨hnumber, hspace, hdefault⟩ := hvalue
    obtain ⟨lead, rfl, rfl⟩ := isLead_iff.1 hlead
    obtain rfl := isDefault_iff.1 hdefault
    have hdigits : Run isDigit _ := hnumber.run.imp_right fun h c hc => isDigit_of_ascii c (h c hc)
    let l : FieldLine := ⟨lead, ⟨_, htype⟩, ⟨_, hgap⟩, ⟨_, hname⟩, ⟨_, hbefore⟩, ⟨_, hbehind⟩,
      ⟨_, hdigits⟩, ⟨_, hspace⟩, default⟩
    obtain ⟨hnumbered, rfl⟩ := l.isNumber_iff.1 hnumber
    exact ⟨l, String.toList_inj.1 ((String.toList_ofList ..).trans htext.symm), hnumbered, rfl⟩
  · rintro ⟨l, rfl, hnumbered, rfl⟩
    exact .intro (String.toList_ofList ..) (isLead_iff.2 ⟨_, rfl, rfl⟩) l.type.2 l.gap.2 l.name.2
      l.isEquals (.intro (l.isNumber_iff.2 ⟨hnumbered, rfl⟩) l.space.2 (isDefault_iff.2 rfl))

theorem last_text (l : FieldLine) : l.text.toList.getLast? = some ';' := by
  simp only [text, body, value, String.toList_ofList, ← List.append_assoc, List.getLast?_concat]

/-- The only statement that a field's line can be is the field of its pieces. -/
theorem read?_text (l : FieldLine) :
    MessageStatement.read? l.text = if l.Numbered then some (.field l.field) else none := by
  split
  · next hnumbered =>
    exact MessageStatement.read?_eq_some_iff.2 (.field (isField_iff.2 ⟨l, rfl, hnumbered, rfl⟩))
  · next hnumbered =>
    refine Option.eq_none_iff_forall_ne_some.2 fun statement hread => ?_
    have hlast := l.last_text
    cases MessageStatement.read?_eq_some_iff.1 hread with
    | close h => simp [h] at hlast
    | openEnum h => simp [h.ends] at hlast
    | openMessage h => simp [h.ends] at hlast
    | field h =>
      obtain ⟨l', htext, hnumbered', -⟩ := isField_iff.1 h
      exact hnumbered (text_inj htext ▸ hnumbered')

/-- Zeros in front of the number count for nothing. -/
theorem index_padded (l : FieldLine) (zeros : Nat) : (l.padded zeros).index = l.index := by
  induction zeros with
  | zero => rfl
  | succ zeros ih =>
    rw [← ih]
    rfl

theorem numbered_padded (l : FieldLine) (zeros : Nat) :
    (l.padded zeros).Numbered ↔ l.Numbered := by
  rw [Numbered, Numbered, index_padded]
  refine and_congr_left' ?_
  simp only [padded, List.forall_mem_append]
  exact and_iff_right fun c hc => by rw [List.eq_of_mem_replicate hc]; rfl

/-- Leading zeros change nothing about the field. -/
theorem field_padded (l : FieldLine) (zeros : Nat) : (l.padded zeros).field = l.field := by
  rw [field, field, index_padded]
  rfl

theorem read?_padded (l : FieldLine) (zeros : Nat) :
    MessageStatement.read? (l.padded zeros).text = MessageStatement.read? l.text := by
  simp only [read?_text, numbered_padded, field_padded]

/-- **What becomes of a field's line in a message.** A line is read as a field exactly if it can be
cut into pieces with a number of 32 bits in ASCII, and the field is that of the pieces. There is
one cut at most. With such a number the field is added to the message; with any other the line is
refused, whatever the message holds, and so is the source. Zeros in front of the number change
nothing. -/
theorem read_once (schema : Schema) (block : OpenMessage) (outer : List OpenMessage)
    (line : Line) :
    let r : Reader := ⟨schema, .message block outer⟩
    (∀ f, MessageStatement.read? line.text = some (.field f) ↔
      ∃ l : FieldLine, l.text = line.text ∧ l.Numbered ∧ f = l.field) ∧
    ∀ l : FieldLine, l.text = line.text →
      (∀ l' : FieldLine, l'.text = line.text → l' = l) ∧
      (l.Numbered → r.step line = (block.addField line.number l.field).map fun block =>
        ⟨schema, .message block outer⟩) ∧
      (¬l.Numbered → r.step line = .error (.invalidLine line.number line.text) ∧
        ∀ earlier later, earlier.foldlM Reader.step Reader.start = .ok r →
          Schema.ofLines (earlier ++ line :: later) =
            .error (.invalidLine line.number line.text)) ∧
      ∀ zeros, MessageStatement.read? (l.padded zeros).text = MessageStatement.read? l.text := by
  intro r
  refine ⟨fun f => ?_, fun l htext => ⟨fun l' htext' => ?_, fun hnumbered => ?_,
    fun hnumbered => ?_, l.read?_padded⟩⟩
  · rw [MessageStatement.read?_eq_some_iff, ← isField_iff]
    exact ⟨fun h => by cases h; assumption, .field⟩
  · exact text_inj (htext'.trans htext.symm)
  · have hread := l.read?_text
    rw [htext, if_pos hnumbered] at hread
    simp only [r, Reader.step, Reader.messageLine, hread]
  · have hread := l.read?_text
    rw [htext, if_neg hnumbered] at hread
    have hrefused : r.step line = .error (.invalidLine line.number line.text) := by
      simp only [r, Reader.step, Reader.messageLine, hread]
    exact ⟨hrefused, fun earlier later hearlier =>
      Schema.ofLines_of_refused hearlier hrefused later⟩

/-- A line of keywords, with a number. -/
def keywords (digits : RunOf isDigit) : FieldLine where
  lead := some (.optional, ⟨[' '], by decide +kernel⟩)
  type := ⟨"required".toList, keyword_run .required⟩
  gap := ⟨[' '], by decide +kernel⟩
  name := ⟨"repeated".toList, keyword_run .repeated⟩
  before := ⟨[' '], List.all_eq_true.1 (by decide +kernel)⟩
  behind := ⟨[], by simp⟩
  digits
  space := ⟨[], by simp⟩
  default := some true

/-- A number that 32 bits hold, and the next number after all of these. -/
theorem read_once_keywords :
    (∃ r, (Reader.openMessage .empty "M" []).step
      ⟨"optional required repeated =007[default = true];", 2⟩ = .ok r ∧
      r.blocks = .message ⟨0, "M",
        [.declare (some .optional) "required" "repeated" 7 (some true)]⟩ []) ∧
    (Reader.openMessage .empty "M" []).step
      ⟨"optional required repeated =4294967296[default = true];", 2⟩ =
        .error (.invalidLine 2 "optional required repeated =4294967296[default = true];") := by
  let small := keywords ⟨"007".toList, by decide +kernel⟩
  let large := keywords ⟨"4294967296".toList, by decide +kernel⟩
  have hsmall := (read_once (Schema.empty.declare none "M" .message) ⟨0, "M", []⟩ []
    ⟨"optional required repeated =007[default = true];", 2⟩).2 small (by decide +kernel)
  have hlarge := (read_once (Schema.empty.declare none "M" .message) ⟨0, "M", []⟩ []
    ⟨"optional required repeated =4294967296[default = true];", 2⟩).2 large (by decide +kernel)
  exact ⟨⟨_, hsmall.2.1 (by decide +kernel), rfl⟩, (hlarge.2.2.1 (by decide +kernel)).1⟩

end FieldLine
end SwiftWrap
