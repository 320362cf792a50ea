import SwiftWrap.Proofs.Mark

/-! The wording of generated lines.

A line is a template whose gaps are filled with names (`fill`). Whether it tells something is
seen from its beginning, and from what stands behind its last parenthesis. So a template that
does not begin like a line that tells something (`isDull`), and has no parenthesis in front of
a value (`isMute`), makes plain lines of all names (`plain_fill`). -/
namespace SwiftWrap
open Text

namespace Text

/-- A character that may stand within a line. -/
def isInk (c : Char) : Bool := !isBlank c || c == ' '

/-- A character that may stand within a line and opens no parenthesis. -/
def isQuiet (c : Char) : Bool := isInk c && c != '('

theorem isInk_of_isQuiet {c : Char} (h : isQuiet c = true) : isInk c = true :=
  (Bool.and_eq_true_iff.1 h).1

theorem isQuiet_of_isToken {c : Char} (h : isToken c = true) : isQuiet c = true := by
  have hopen : isToken '(' = false := by decide
  rw [isQuiet, isInk, token_not_blank h]
  refine bne_iff_ne.2 ?_
  rintro rfl
  rw [hopen] at h
  cases h

/-! ### Texts that begin differently -/

/-- Two texts differ at a place that both have. -/
def clash : List Char → List Char → Bool
  | a :: as, b :: bs => a != b || clash as bs
  | _, _ => false

/-- Texts that begin differently do so whatever follows. -/
theorem clash_append {start cs : List Char} (h : clash start cs = true) (rest : List Char) :
    clash start (cs ++ rest) = true := by
  induction start generalizing cs with
  | nil => simp [clash] at h
  | cons a start ih =>
    cases cs with
    | nil => simp [clash] at h
    | cons b cs =>
      rw [clash, Bool.or_eq_true] at h
      rw [List.cons_append, clash, Bool.or_eq_true]
      exact h.imp_right ih

/-- What begins differently does not begin with it. -/
theorem after?_of_clash {start cs : List Char} (h : clash start cs = true) :
    after? start cs = none := by
  induction start generalizing cs with
  | nil => simp [clash] at h
  | cons a start ih =>
    cases cs with
    | nil => rfl
    | cons b cs =>
      rw [clash, Bool.or_eq_true, bne_iff_ne] at h
      rw [after?]
      split
      · next heq => exact ih (h.resolve_left (absurd heq))
      · rfl

/-- Texts that start with different words, or with a word and different marks, differ. -/
theorem clash_of_run {p : Char → Bool} {word word' rest rest' : List Char} {c c' : Char}
    (hword : ∀ x ∈ word, p x = true) (hword' : ∀ x ∈ word', p x = true) (hc : p c = false)
    (hc' : p c' = false) (h : word ≠ word' ∨ c ≠ c') :
    clash (word ++ c :: rest) (word' ++ c' :: rest') = true := by
  induction word generalizing word' with
  | nil =>
    cases word' with
    | nil => simpa [clash] using Or.inl (h.resolve_left (absurd rfl))
    | cons b word' =>
      have hb := hword' b List.mem_cons_self
      have hne : c ≠ b := by
        rintro rfl
        rw [hc] at hb
        cases hb
      simp [clash, hne]
  | cons a word ih =>
    obtain ⟨ha, hrest⟩ := List.forall_mem_cons.1 hword
    cases word' with
    | nil =>
      have hne : a ≠ c' := by
        rintro rfl
        rw [hc'] at ha
        cases ha
      simp [clash, hne]
    | cons b word' =>
      rw [List.cons_append, List.cons_append, clash, Bool.or_eq_true, bne_iff_ne]
      by_cases hab : a = b
      · refine .inr (ih hrest (List.forall_mem_cons.1 hword').2 (h.imp_left ?_))
        rintro hne rfl
        exact hne (by rw [hab])
      · exact .inl hab

end Text

namespace Code

/-- The first character is to be seen. -/
def begins (text : String) : Bool := text.toList.head?.any (!isBlank ·)

/-- The last character is to be seen. -/
def ends (text : String) : Bool := text.toList.getLast?.any (!isBlank ·)

theorem begins_append {first : String} (h : begins first = true) (second : String) :
    begins (first ++ second) = true := by
  unfold begins at h ⊢
  rw [String.toList_append]
  cases hfirst : first.toList with
  | nil => simp [hfirst] at h
  | cons c rest => simpa [hfirst] using h

theorem ends_append (first : String) {second : String} (h : ends second = true) :
    ends (first ++ second) = true := by
  unfold ends at h ⊢
  rw [String.toList_append, List.getLast?_append]
  cases hlast : second.toList.getLast? with
  | none => simp [hlast] at h
  | some c => simpa [hlast] using h

theorem tight {text : String} (hink : AllOf isInk text) (hbegins : begins text = true)
    (hends : ends text = true) : Sheet.Tight text :=
  Sheet.tight_iff.2 ⟨fun hbreak => absurd (hink.mem hbreak) (by decide), hbegins, hends⟩

/-! ### Dull beginnings -/

/-- What lines begin with that tell something, calls apart. -/
def starts : List String :=
  ["@objc public class ", "@objc public enum ", "@objc public let ", "public let ",
    "fileprivate class func ", "public enum ", "throw "]

/-- The first characters of those. -/
def initials : List Char := ['@', 'p', 'f', 't']

/-- A text that begins with none of these, however it goes on. The first character is looked
at first, since it is enough for most. -/
def isDull (text : String) : Bool :=
  text.toList.head?.any fun c =>
    !initials.contains c || starts.all fun start => clash start.toList text.toList

/-- A dull text begins like no line that tells something. -/
theorem clash_of_isDull {text : String} (h : isDull text = true) :
    ∀ start ∈ starts, clash start.toList text.toList = true := by
  have hinitials : ∀ start ∈ starts, start.toList.head?.any initials.contains = true := by
    decide
  intro start hstart
  rw [isDull] at h
  cases htext : text.toList with
  | nil => simp [htext] at h
  | cons c rest =>
    rw [htext, List.head?_cons, Option.any_some, Bool.or_eq_true] at h
    rcases h with hc | h
    · have hinitial := hinitials start hstart
      cases hchars : start.toList with
      | nil => simp [hchars] at hinitial
      | cons a tail =>
        rw [hchars, List.head?_cons, Option.any_some] at hinitial
        rw [clash, Bool.or_eq_true, bne_iff_ne]
        refine .inl ?_
        rintro rfl
        simp [List.contains_iff_mem.1 hinitial] at hc
    · exact List.all_eq_true.1 h start hstart

theorem isDull_of_clash {text : String} (hne : text ≠ "")
    (h : ∀ start ∈ starts, clash start.toList text.toList = true) : isDull text = true := by
  rw [isDull]
  cases htext : text.toList with
  | nil => exact absurd (String.toList_eq_nil_iff.1 htext) hne
  | cons c rest =>
    rw [htext] at h
    rw [List.head?_cons, Option.any_some, List.all_eq_true.2 h, Bool.or_true]

/-- A dull beginning makes a dull line. -/
theorem isDull_append {first : String} (h : isDull first = true) (second : String) :
    isDull (first ++ second) = true := by
  have hne : first ++ second ≠ "" := by
    intro hempty
    rw [(String.append_eq_empty_iff.1 hempty).1] at h
    cases h
  refine isDull_of_clash hne fun start hstart => ?_
  rw [String.toList_append]
  exact clash_append (clash_of_isDull h start hstart) _

theorem between?_eq_none {start ending text : String}
    (h : after? start.toList text.toList = none) : between? start ending text = none := by
  rw [between?, h]
  rfl

theorem after?_head {start : List Char} {text : String} (h : after? start text.toList = none) :
    after? start (head text).toList = none := by
  cases hafter : after? start (head text).toList with
  | none => rfl
  | some rest =>
    rw [after?_eq_some_iff, head, String.toList_ofList] at hafter
    have htext : text.toList = start ++ (rest ++ text.toList.dropWhile (· ≠ '(')) := by
      rw [← List.append_assoc, ← hafter, List.takeWhile_append_dropWhile]
    rw [after?_eq_some_iff.2 htext] at h
    cases h

/-- A heading is known by how it begins. -/
theorem heading?_of_clash {text : String}
    (hclass : clash "@objc public class ".toList text.toList = true)
    (henum : clash "@objc public enum ".toList text.toList = true) : heading? text = none := by
  rw [heading?, between?_eq_none (after?_of_clash hclass), between?_eq_none (after?_of_clash henum)]
  rfl

/-- So is a property. -/
theorem property?_of_clash {text : String}
    (hvisible : clash "@objc public let ".toList text.toList = true)
    (hlet : clash "public let ".toList text.toList = true) : property? text = none := by
  rw [property?, after?_of_clash hvisible, after?_of_clash hlet]
  rfl

/-- A line with a dull beginning can only call something. -/
theorem sign?_of_isDull {text : String} (h : isDull text = true) :
    sign? text = (callee? text).map .calls := by
  have hclash := clash_of_isDull h
  simp only [starts, List.forall_mem_cons] at hclash
  obtain ⟨hclass, henum, hvisible, hlet, hfunction, herror, hthrow, -⟩ := hclash
  rw [sign?, heading?_of_clash hclass henum, property?_of_clash hvisible hlet, function?,
    between?_eq_none (after?_head (after?_of_clash hfunction)), errorType?,
    between?_eq_none (after?_of_clash herror), thrown?,
    between?_eq_none (after?_head (after?_of_clash hthrow))]
  rfl

/-- A text that begins with a name is dull, unless a space follows and the name is one of the
words that begin a line which tells something. -/
theorem isDull_name {name rest : String} (c : Char) (hname : AllOf isToken name) (hne : name ≠ "")
    (hc : isToken c = false) (hrest : rest.toList.head? = some c)
    (h : c = ' ' → name ∉ ["public", "fileprivate", "throw"]) : isDull (name ++ rest) = true := by
  have hwords : ∀ start ∈ starts, ∃ word mark tail, start.toList = word ++ mark :: tail ∧
      (∀ x ∈ word, isToken x = true) ∧ isToken mark = false ∧
      (word = [] ∨ mark = ' ' ∧ String.ofList word ∈ ["public", "fileprivate", "throw"]) := by
    have hcheck : ∀ start ∈ starts,
        (start.toList.dropWhile isToken).head?.any (fun mark =>
          (start.toList.takeWhile isToken).isEmpty || (mark == ' ' &&
            ["public", "fileprivate", "throw"].contains
              (String.ofList (start.toList.takeWhile isToken)))) = true := by
      decide
    intro start hstart
    have := hcheck start hstart
    cases hdrop : start.toList.dropWhile isToken with
    | nil => simp [hdrop] at this
    | cons mark tail =>
      refine ⟨start.toList.takeWhile isToken, mark, tail, ?_, ?_, ?_, ?_⟩
      · rw [← hdrop, List.takeWhile_append_dropWhile]
      · exact fun x hx => List.mem_takeWhile_imp hx
      · have := stops_dropWhile isToken start.toList
        rw [hdrop] at this
        exact stops_cons.1 this
      · simpa [hdrop] using this
  refine isDull_of_clash (fun hempty => hne (String.append_eq_empty_iff.1 hempty).1)
    fun start hstart => ?_
  obtain ⟨word, mark, tail, hsplit, hword, hmark, hcase⟩ := hwords start hstart
  obtain ⟨cs, hcs⟩ := List.head?_eq_some_iff.1 hrest
  rw [hsplit, String.toList_append, hcs]
  refine clash_of_run hword (List.all_eq_true.1 hname) hmark hc ?_
  by_cases hsame : mark = c
  · left
    rintro rfl
    rcases hcase with hnil | ⟨rfl, hmem⟩
    · exact hne (String.toList_eq_nil_iff.1 hnil)
    · rw [String.ofList_toList] at hmem
      exact h hsame.symm hmem
  · exact .inr hsame

/-! ### Calls -/

/-- Where nothing is in parentheses, nothing is called. -/
theorem callee?_of_not_mem {text : String} (h : '(' ∉ text.toList) : callee? text = none := by
  have hdrop : text.toList.reverse.dropWhile (· ≠ '(') = [] := by
    rw [List.dropWhile_eq_nil_iff]
    intro c hc
    rw [decide_eq_true_iff]
    rintro rfl
    exact h (List.mem_reverse.1 hc)
  rw [callee?, hdrop]

/-- A call is read from its last parenthesis on. -/
theorem callee?_of_argument {text : String} {before argument : List Char}
    (htext : text.toList = before ++ '(' :: argument) (h : '(' ∉ argument) :
    callee? text =
      if values.any fun value => (after? value.toList argument).isSome then
        some (.ofList (before.reverse.takeWhile isRef).reverse)
      else none := by
  have hreverse : text.toList.reverse = argument.reverse ++ '(' :: before.reverse := by
    rw [htext]
    simp
  have hrun : ∀ c ∈ argument.reverse, decide (c ≠ '(') = true := by
    intro c hc
    rw [decide_eq_true_iff]
    rintro rfl
    exact h (List.mem_reverse.1 hc)
  have hstop : Stops (fun c => decide (c ≠ '(')) ('(' :: before.reverse) := by simp
  rw [callee?, Code.argument, hreverse, dropWhile_run hrun hstop, takeWhile_run hrun hstop,
    List.reverse_reverse]

/-- A text whose last parenthesis is not followed by a value, however the text goes on. -/
def Settled (text : String) : Prop :=
  ∃ before argument, text.toList = before ++ '(' :: argument ∧ '(' ∉ argument ∧
    ∀ value ∈ values, clash value.toList argument = true

/-- A call whose arguments are labelled is no call of a converter. -/
theorem Settled.callee? {text : String} (h : Settled text) : callee? text = none := by
  obtain ⟨before, argument, htext, hargument, hclash⟩ := h
  rw [callee?_of_argument htext hargument, if_neg]
  rw [List.any_eq_true]
  rintro ⟨value, hvalue, hafter⟩
  rw [after?_of_clash (hclash value hvalue)] at hafter
  cases hafter

theorem Settled.append {first second : String} (h : Settled first) (hsecond : '(' ∉ second.toList) :
    Settled (first ++ second) := by
  obtain ⟨before, argument, hfirst, hargument, hclash⟩ := h
  refine ⟨before, argument ++ second.toList, ?_, ?_, fun value hvalue => ?_⟩
  · rw [String.toList_append, hfirst, List.append_assoc, List.cons_append]
  · rw [List.mem_append, not_or]
    exact ⟨hargument, hsecond⟩
  · exact clash_append (hclash value hvalue) _

theorem Settled.behind {second : String} (h : Settled second) (first : String) :
    Settled (first ++ second) := by
  obtain ⟨before, argument, hsecond, hrest⟩ := h
  exact ⟨first.toList ++ before, argument, by rw [String.toList_append, hsecond,
    List.append_assoc], hrest⟩

/-- A text in which no value is the argument of a call. -/
def Mute (text : String) : Prop := '(' ∉ text.toList ∨ Settled text

theorem Mute.append {first second : String} (h : Mute first) (h' : Mute second) :
    Mute (first ++ second) := by
  rcases h' with h' | h'
  · rcases h with h | h
    · refine .inl ?_
      rw [String.toList_append, List.mem_append, not_or]
      exact ⟨h, h'⟩
    · exact .inr (h.append h')
  · exact .inr (h'.behind first)

theorem Mute.callee? {text : String} (h : Mute text) : callee? text = none :=
  h.elim callee?_of_not_mem Settled.callee?

/-- No parenthesis of a text is followed by a value. -/
def isMute (text : String) : Bool :=
  !text.toList.contains '(' || values.all fun value => clash value.toList (argument text)

/-- A mute beginning calls nothing, whatever stands behind it. -/
theorem mute_of_isMute {text : String} (h : isMute text = true) : Mute text := by
  by_cases hopen : '(' ∈ text.toList
  · right
    have hvalues : ∀ value ∈ values, clash value.toList (argument text) = true := by
      simpa [isMute, hopen] using h
    have hmem : '(' ∈ text.toList.reverse := List.mem_reverse.2 hopen
    cases hdrop : text.toList.reverse.dropWhile (· ≠ '(') with
    | nil =>
      have := List.dropWhile_eq_nil_iff.1 hdrop '(' hmem
      simp at this
    | cons c before =>
      have hc : c = '(' := by
        have := stops_dropWhile (fun x => decide (x ≠ '(')) text.toList.reverse
        rw [hdrop, stops_cons] at this
        simpa using this
      refine ⟨before.reverse, argument text, ?_, fun hmem => ?_, hvalues⟩
      · have hsplit := List.takeWhile_append_dropWhile (p := fun x => decide (x ≠ '('))
          (l := text.toList.reverse)
        rw [hdrop, hc] at hsplit
        have := congrArg List.reverse hsplit
        rw [List.reverse_reverse] at this
        rw [← this, argument]
        simp
      · have := List.mem_takeWhile_imp (List.mem_reverse.1 hmem)
        simp at this
  · exact .inl hopen

/-- A line that is dull and mute tells nothing. -/
theorem plain_of {text : String} (htight : Sheet.Tight text) (hdull : isDull text = true)
    (hmute : Mute text) : Plain text := by
  refine ⟨htight, ?_⟩
  rw [sign?_of_isDull hdull, hmute.callee?]
  rfl

/-! ### Templates -/

/-- A text that can fill a gap. -/
structure Filler (text : String) : Prop where
  quiet : AllOf isQuiet text
  begins : begins text = true
  ends : ends text = true

theorem not_open {text : String} (h : AllOf isQuiet text) : '(' ∉ text.toList := fun hmem =>
  absurd (h.mem hmem) (by decide)

theorem Filler.mute {text : String} (h : Filler text) : Mute text := .inl (not_open h.quiet)

/-- What fills a gap. -/
abbrev Gap := { text : String // Filler text }

/-- A text that is interpolated stands for itself. -/
@[simp] theorem toString_text (text : String) : toString text = text := rfl

/-- Texts with gaps between them, and what fills the gaps. -/
@[simp] def fill : List String → List Gap → String
  | text :: texts, gap :: gaps => text ++ gap ++ fill texts gaps
  | text :: _, [] => text
  | [], _ => ""

/-- Gaps are filled with visible text only. -/
theorem allOf_fill {texts : List String} (h : ∀ text ∈ texts, AllOf isInk text)
    (gaps : List Gap) : AllOf isInk (fill texts gaps) := by
  induction texts generalizing gaps with
  | nil => rfl
  | cons text texts ih =>
    obtain ⟨htext, hrest⟩ := List.forall_mem_cons.1 h
    cases gaps with
    | nil => exact htext
    | cons gap gaps =>
      have hgap := gap.2.quiet.mono fun _ => isInk_of_isQuiet
      exact allOf_append.2 ⟨allOf_append.2 ⟨htext, hgap⟩, ih hrest gaps⟩

/-- A template whose pieces are mute is mute, however it is filled. -/
theorem mute_fill {texts : List String} (h : ∀ text ∈ texts, Mute text) (gaps : List Gap) :
    Mute (fill texts gaps) := by
  induction texts generalizing gaps with
  | nil => exact .inl List.not_mem_nil
  | cons text texts ih =>
    obtain ⟨htext, hrest⟩ := List.forall_mem_cons.1 h
    cases gaps with
    | nil => exact htext
    | cons gap gaps => exact (htext.append gap.2.mute).append (ih hrest gaps)

/-- A filled template ends as its last piece does. -/
theorem ends_fill {lead : String} (hlead : ends lead = true) {texts : List String}
    (hlast : (texts.getLast?.any fun text => text.isEmpty || ends text) = true) {gaps : List Gap}
    (hlength : texts.length = gaps.length + 1) : ends (lead ++ fill texts gaps) = true := by
  induction texts generalizing lead gaps with
  | nil => simp at hlength
  | cons text texts ih =>
    cases gaps with
    | nil =>
      have hnil : texts = [] := List.length_eq_zero_iff.1 (Nat.succ.inj hlength)
      rw [hnil, List.getLast?_singleton, Option.any_some, Bool.or_eq_true] at hlast
      rw [fill]
      rcases hlast with hempty | hends
      · rwa [String.isEmpty_iff.1 hempty, String.append_empty]
      · exact ends_append lead hends
    | cons gap gaps =>
      have hlength : texts.length = gaps.length + 1 := Nat.succ.inj hlength
      rw [List.getLast?_cons_of_ne_nil (by rintro rfl; simp at hlength)] at hlast
      rw [fill, ← String.append_assoc]
      exact ih (ends_append lead (ends_append text gap.2.ends)) hlast hlength

/-- The texts of a template make a line, whatever fills the gaps. -/
def isLine (texts : List String) : Bool :=
  1 < texts.length && texts.all (·.toList.all isInk) &&
    (texts.head?.any fun text => text.isEmpty || begins text) &&
    texts.getLast?.any fun text => text.isEmpty || ends text

/-- The texts of a template do not begin like a line that tells something, and call nothing. -/
def isPlain (texts : List String) : Bool := texts.head?.any isDull && texts.all isMute

section
variable {text : String} (texts : List String) (gaps : List Gap)

/-- A filled template is a line. -/
theorem tight_fill (hline : isLine texts = true) (hlength : texts.length = gaps.length + 1)
    (htext : text = fill texts gaps) : Sheet.Tight text := by
  subst htext
  simp only [isLine, Bool.and_eq_true, decide_eq_true_eq] at hline
  obtain ⟨⟨⟨hgap, hink⟩, hbegins⟩, hends⟩ := hline
  have hinked := allOf_fill (List.all_eq_true.1 hink) gaps
  match texts, gaps with
  | [], _ => simp at hgap
  | _ :: _, [] =>
    rw [List.length_nil] at hlength
    omega
  | text :: texts, gap :: gaps =>
    have hlength : texts.length = gaps.length + 1 := Nat.succ.inj hlength
    rw [List.getLast?_cons_of_ne_nil (by rintro rfl; simp at hlength)] at hends
    refine tight hinked (begins_append ?_ _) (ends_fill (ends_append text gap.2.ends) hends hlength)
    rcases Bool.or_eq_true_iff.1 hbegins with hempty | hbegins
    · rw [String.isEmpty_iff.1 hempty, String.empty_append]
      exact gap.2.begins
    · exact begins_append hbegins gap

/-- **A filled template that begins dull and is mute tells nothing.** -/
theorem plain_fill (hline : isLine texts = true) (hplain : isPlain texts = true)
    (hlength : texts.length = gaps.length + 1) (htext : text = fill texts gaps) :
    Plain text := by
  rw [isPlain, Bool.and_eq_true] at hplain
  have hmute : Mute text := by
    rw [htext]
    exact mute_fill (fun x hx => mute_of_isMute (List.all_eq_true.1 hplain.2 x hx)) gaps
  have hdull : isDull text = true := by
    rw [htext]
    match texts, gaps with
    | text :: _, [] => exact hplain.1
    | text :: texts, gap :: gaps => exact isDull_append (isDull_append hplain.1 gap) _
  exact plain_of (tight_fill texts gaps hline hlength htext) hdull hmute

end

/-! ### Lines that tell something -/

theorem between?_eq {start ending inner text : String} (h : text = start ++ inner ++ ending) :
    between? start ending text = some inner := by
  have hstart : after? start.toList text.toList = some (inner.toList ++ ending.toList) := by
    rw [after?_eq_some_iff, h]
    simp
  have hending : after? ending.toList.reverse (ending.toList.reverse ++ inner.toList.reverse) =
      some inner.toList.reverse :=
    after?_eq_some_iff.2 rfl
  rw [between?, hstart]
  simp [hending]

theorem clash_start {start lit : String} (h : clash start.toList lit.toList = true)
    (rest : String) : clash start.toList (lit ++ rest).toList = true := by
  rw [String.toList_append]
  exact clash_append h _

/-- The first line of a wrapper class is read as its heading. -/
theorem heading?_class (name : String) :
    heading? ("@objc public class " ++ name ++ ": NSObject" ++ " \x7b") = some (.message, name) := by
  have hbetween : between? "@objc public class " ": NSObject \x7b"
      ("@objc public class " ++ name ++ ": NSObject" ++ " \x7b") = some name :=
    between?_eq (by rw [String.append_assoc]; rfl)
  rw [heading?, hbetween]

/-- And so is that of an enum. -/
theorem heading?_enum (name : String) :
    heading? ("@objc public enum " ++ name ++ ": Int32" ++ " \x7b") =
      some (.enumeration, name) := by
  have hclass : between? "@objc public class " ": NSObject \x7b"
      ("@objc public enum " ++ name ++ ": Int32" ++ " \x7b") = none := by
    refine between?_eq_none (after?_of_clash ?_)
    rw [String.append_assoc, String.append_assoc]
    exact clash_start (by decide) _
  have hbetween : between? "@objc public enum " ": Int32 \x7b"
      ("@objc public enum " ++ name ++ ": Int32" ++ " \x7b") = some name :=
    between?_eq (by rw [String.append_assoc]; rfl)
  rw [heading?, hclass, hbetween]
  rfl

theorem head_append {first : String} (h : '(' ∉ first.toList) (second : String) :
    head (first ++ second) = first ++ head second := by
  have hrun : ∀ c ∈ first.toList, decide (c ≠ '(') = true := by
    intro c hc
    rw [decide_eq_true_iff]
    rintro rfl
    exact h hc
  rw [head, String.toList_append, List.takeWhile_append_of_pos hrun, String.ofList_append,
    String.ofList_toList]
  rfl

theorem head_append_open {first : String} (h : '(' ∈ first.toList) (second : String) :
    head (first ++ second) = head first := by
  obtain ⟨before, after, hsplit⟩ := List.append_of_mem h
  rw [head, head, String.toList_append, hsplit, List.append_assoc, List.cons_append,
    takeWhile_append_cons (by simp), takeWhile_append_cons (by simp)]

/-- A function is read by its name. -/
theorem sign?_function (name tail rest : String) (hname : '(' ∉ name.toList)
    (htail : '(' ∈ tail.toList) (hhead : head tail = "") :
    sign? ("fileprivate class func " ++ (name ++ (tail ++ rest))) = some (.defines name) := by
  have hopen : '(' ∉ "fileprivate class func ".toList := by decide
  have hfunction : function? ("fileprivate class func " ++ (name ++ (tail ++ rest))) = some name := by
    rw [function?, head_append hopen, head_append hname, head_append_open htail, hhead]
    exact between?_eq (String.append_assoc ..).symm
  rw [sign?, heading?_of_clash (clash_start (by decide) _) (clash_start (by decide) _),
    property?_of_clash (clash_start (by decide) _) (clash_start (by decide) _), hfunction]
  rfl

/-- An error type is read by its name. -/
theorem sign?_errorType (name : String) :
    sign? ("public enum " ++ name ++ ": Error" ++ " \x7b") = some (.errs name) := by
  have herror : errorType? ("public enum " ++ name ++ ": Error" ++ " \x7b") = some name :=
    between?_eq (by rw [String.append_assoc]; rfl)
  rw [String.append_assoc, String.append_assoc] at herror ⊢
  rw [sign?, heading?_of_clash (clash_start (by decide) _) (clash_start (by decide) _),
    property?_of_clash (clash_start (by decide) _) (clash_start (by decide) _), function?,
    between?_eq_none (after?_head (after?_of_clash (clash_start (by decide) _))), herror]
  rfl

/-- A statement that throws is read with the type of what it throws. -/
theorem sign?_throw {type : String} (htype : '(' ∉ type.toList) (rest : String) :
    sign? ("throw " ++ (type ++ (".invalidProtobuf(description: " ++ rest))) =
      some (.throws type) := by
  have hthrow : '(' ∉ "throw ".toList := by decide
  have htail : '(' ∈ ".invalidProtobuf(description: ".toList := by decide
  have hthrown : thrown? ("throw " ++ (type ++ (".invalidProtobuf(description: " ++ rest))) =
      some type := by
    rw [thrown?, head_append hthrow, head_append htype, head_append_open htail]
    exact between?_eq (String.append_assoc ..).symm
  rw [sign?, heading?_of_clash (clash_start (by decide) _) (clash_start (by decide) _),
    property?_of_clash (clash_start (by decide) _) (clash_start (by decide) _), function?,
    between?_eq_none (after?_head (after?_of_clash (clash_start (by decide) _))), errorType?,
    between?_eq_none (after?_of_clash (clash_start (by decide) _)), hthrown]
  rfl

theorem property?_of_rest {text name type : String} (hname : ':' ∉ name.toList)
    (h : ((after? "@objc public let ".toList text.toList).or
      (after? "public let ".toList text.toList)) =
        some (name.toList ++ (": ".toList ++ type.toList))) :
    property? text = some (name, .ofList (type.toList.filter isRef)) := by
  have hrun : ∀ c ∈ name.toList, decide (c ≠ ':') = true := by
    intro c hc
    rw [decide_eq_true_iff]
    rintro rfl
    exact hname hc
  have hstop : Stops (fun c => decide (c ≠ ':')) (": ".toList ++ type.toList) := by
    rw [show ": ".toList = [':', ' '] by decide]
    simp
  rw [property?, h]
  simp only [Option.bind_eq_bind, Option.bind_some, takeWhile_run hrun hstop,
    dropWhile_run hrun hstop, after?_eq_some_iff.2 rfl, String.ofList_toList]
  rfl

/-- What a property begins with. -/
def letStart (visible : Bool) : String := if visible then "@objc public let " else "public let "

theorem property_eq (visible : Bool) (name type : String) :
    Swift.objc visible ++ "public let " ++ name ++ ": " ++ type =
      letStart visible ++ (name ++ (": " ++ type)) := by
  simp only [String.append_assoc]
  cases visible <;> rfl

/-- A property is read with its name and the type of its values. -/
theorem sign?_property (visible : Bool) {name : String} (hname : ':' ∉ name.toList)
    (type : String) :
    sign? (letStart visible ++ (name ++ (": " ++ type))) =
      some (.declares name (.ofList (type.toList.filter isRef))) := by
  have hclass : clash "@objc public class ".toList (letStart visible).toList = true := by
    cases visible <;> decide
  have henum : clash "@objc public enum ".toList (letStart visible).toList = true := by
    cases visible <;> decide
  have hrest : ((after? "@objc public let ".toList
        (letStart visible ++ (name ++ (": " ++ type))).toList).or
      (after? "public let ".toList (letStart visible ++ (name ++ (": " ++ type))).toList)) =
        some (name.toList ++ (": ".toList ++ type.toList)) := by
    cases visible with
    | true =>
      rw [letStart, if_pos rfl, after?_eq_some_iff.2 (String.toList_append ..)]
      simp
    | false =>
      rw [letStart, if_neg (by decide), after?_of_clash (clash_start (by decide) _),
        after?_eq_some_iff.2 (String.toList_append ..)]
      simp
  rw [sign?, heading?_of_clash (clash_start hclass _) (clash_start henum _),
    property?_of_rest hname hrest]
  rfl

/-- A call of a function on a value is read back. -/
theorem sign?_call {text lead ref value : String} (hdull : isDull text = true)
    (htext : text = lead ++ (ref ++ ("(" ++ value)))
    (hlead : (lead.toList.getLast?.all fun c => !isRef c) = true) (href : AllOf isRef ref)
    (hopen : '(' ∉ value.toList)
    (hvalue : ∃ start ∈ values, ∃ rest, value = start ++ rest) :
    sign? text = some (.calls ref) := by
  have hsplit : text.toList = (lead.toList ++ ref.toList) ++ '(' :: value.toList := by
    rw [htext]
    simp only [String.toList_append, List.append_assoc]
    rfl
  have hany : (values.any fun start => (after? start.toList value.toList).isSome) = true := by
    obtain ⟨start, hstart, rest, rfl⟩ := hvalue
    refine List.any_eq_true.2 ⟨start, hstart, ?_⟩
    rw [after?_eq_some_iff.2 (String.toList_append ..)]
    rfl
  have hstop : Stops isRef lead.toList.reverse := by
    intro c hc
    rw [List.head?_reverse] at hc
    simpa [Option.mem_def.1 hc] using hlead
  have href' : ∀ c ∈ ref.toList.reverse, isRef c = true := fun c hc =>
    href.mem (List.mem_reverse.1 hc)
  rw [sign?_of_isDull hdull, callee?_of_argument hsplit hopen, if_pos hany, List.reverse_append,
    takeWhile_run href' hstop, List.reverse_reverse, String.ofList_toList]
  rfl

end Code
end SwiftWrap
