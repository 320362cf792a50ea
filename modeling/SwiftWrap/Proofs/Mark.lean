import SwiftWrap.Proofs.Placement
import SwiftWrap.Proofs.Token

/-! What the lines of generated code tell.

A line may open a wrapper, or declare, define, call or throw something by its name: that is
its sign (`Code.sign?`). A mark is a sign with the headings around its line (`Code.marks`).

`Script.Writes` says of a script which marks its lines have, wherever they are written. There
is one rule for each way to build a script, so what a whole script writes follows from what
its lines tell. -/
namespace SwiftWrap
open Text

/-- What a line of generated code tells. -/
inductive Sign where
  /-- A wrapper is opened. -/
  | opens (kind : Kind) (name : String)
  /-- A property, with the path in its type. -/
  | declares (name type : String)
  /-- A function of the class around it. -/
  | defines (function : String)
  /-- An error type. -/
  | errs (name : String)
  /-- A function is called on the value of a field. -/
  | calls (function : String)
  /-- An error of a type is thrown. -/
  | throws (type : String)
deriving DecidableEq

/-- What a line tells, with the names of the headings around it, and whether it stands
directly under the last of them. -/
structure Mark where
  around : List String
  direct : Bool
  sign : Sign
deriving DecidableEq

namespace Code

/-! ### Reading signs -/

/-- A text up to its first parenthesis. -/
def head (text : String) : String := .ofList (text.toList.takeWhile (· ≠ '('))

/-- The name of a property, and its type without brackets and question mark. -/
def property? (text : String) : Option (String × String) := do
  let rest ← (after? "@objc public let ".toList text.toList).or
    (after? "public let ".toList text.toList)
  let type ← after? ": ".toList (rest.dropWhile (· ≠ ':'))
  return (.ofList (rest.takeWhile (· ≠ ':')), .ofList (type.filter isRef))

/-- The name of a function that only the file can call. -/
def function? (text : String) : Option String := between? "fileprivate class func " "" (head text)

/-- The name of an error type. -/
def errorType? (text : String) : Option String := between? "public enum " ": Error \x7b" text

/-- The type of the error that is thrown. -/
def thrown? (text : String) : Option String := between? "throw " ".invalidProtobuf" (head text)

/-- What the value of a field begins with, behind a parenthesis: an item of a list that is
read or built, or a member of what is read or built. -/
def values : List String := ["item))", "proto.", "self."]

/-- What stands behind the last parenthesis. -/
def argument (text : String) : List Char := (text.toList.reverse.takeWhile (· ≠ '(')).reverse

/-- The path in front of the last parenthesis, where the value of a field follows. -/
def callee? (text : String) : Option String :=
  match text.toList.reverse.dropWhile (· ≠ '(') with
  | [] => none
  | _ :: before =>
    if values.any fun value => (after? value.toList (argument text)).isSome then
      some (.ofList (before.takeWhile isRef).reverse)
    else none

/-- What a line tells. -/
def sign? (text : String) : Option Sign :=
  ((heading? text).map fun (kind, name) => .opens kind name).or <|
  ((property? text).map fun (name, type) => .declares name type).or <|
  ((function? text).map .defines).or <|
  ((errorType? text).map .errs).or <|
  ((thrown? text).map .throws).or <|
  (callee? text).map .calls

end Code

/-- What a line tells, where it stands. -/
def Placed.mark? (l : Placed) : Option Mark :=
  (Code.sign? l.text).map (⟨l.around, decide l.IsDirect, ·⟩)

/-- All that the lines of a text tell. -/
def Code.marks (code : String) : List Mark := (outline code).filterMap Placed.mark?

/-! ### What a script writes -/

namespace Code

/-- A line that can be written, and what it tells. -/
structure Tells (text : String) (sign : Option Sign) : Prop where
  tight : Sheet.Tight text
  sign : sign? text = sign

/-- A line that tells nothing. -/
abbrev Plain (text : String) : Prop := Tells text none

/-- A line that opens no wrapper is no heading. -/
theorem heading?_eq_none {text : String} {sign : Option Sign} (h : sign? text = sign)
    (hsign : ∀ kind name, sign ≠ some (.opens kind name)) : heading? text = none := by
  cases hheading : heading? text with
  | none => rfl
  | some heading =>
    refine absurd ?_ (hsign heading.1 heading.2)
    rw [← h, sign?, hheading]
    rfl

/-- A heading opens a wrapper, whatever else could be read from it. -/
theorem sign?_of_heading {text name : String} {kind : Kind}
    (h : heading? text = some (kind, name)) : sign? text = some (.opens kind name) := by
  rw [sign?, h]
  rfl

end Code

namespace Sheet

/-- A line is tight if it has ink at both ends and no line break. -/
theorem tight_iff {line : String} : Tight line ↔ '\n' ∉ line.toList ∧
    line.toList.head?.any (!isBlank ·) = true ∧ line.toList.getLast?.any (!isBlank ·) = true := by
  simp only [Option.any_eq_true, Bool.not_eq_true']
  exact ⟨fun h => ⟨h.oneLine, h.starts, h.ends⟩, fun h => ⟨h.1, h.2.1, h.2.2⟩⟩

instance (line : String) : Decidable (Tight line) := decidable_of_iff' _ tight_iff

end Sheet

instance (text : String) (sign : Option Sign) : Decidable (Code.Tells text sign) :=
  decidable_of_iff (Sheet.Tight text ∧ Code.sign? text = sign)
    ⟨fun h => ⟨h.1, h.2⟩, fun h => ⟨h.tight, h.sign⟩⟩

namespace Script
open Code

/-- A script that writes lines with these marks below lines that lead under some headings, and
leads under the same headings itself. -/
structure Writes (script : Script) (base : List String) (depth : Nat) (marks : List Mark) :
    Prop where
  level : Level script
  tight : ∀ text ∈ script.texts, Sheet.Tight text
  reads : ∀ above, Anchored above depth base →
    (place above (entries depth script)).filterMap Placed.mark? = marks
  keeps : ∀ above, Anchored above depth base →
    Anchored ((entries depth script).reverse ++ above) depth base

namespace Writes
variable {base : List String} {depth : Nat} {script first second body : Script}
  {marks marks' : List Mark} {head : String}

theorem of_eq (h : Writes script base depth marks) (heq : marks = marks') :
    Writes script base depth marks' :=
  heq ▸ h

/-- Two scripts at the same depth tell what the first tells, then what the second does. -/
theorem append (h : Writes first base depth marks) (h' : Writes second base depth marks') :
    Writes (first ++ second) base depth (marks ++ marks') where
  level := h.level.append h'.level
  tight := by
    rw [texts, List.flatMap_append]
    exact List.forall_mem_append.2 ⟨h.tight, h'.tight⟩
  reads above habove := by
    rw [h.level.entries_append, place_append, List.filterMap_append, h.reads above habove,
      h'.reads _ (h.keeps above habove)]
  keeps above habove := by
    rw [h.level.entries_append, List.reverse_append, List.append_assoc]
    exact h'.keeps _ (h.keeps above habove)

theorem cons {step : Sheet.Step} (h : Writes [step] base depth marks)
    (h' : Writes second base depth marks') : Writes (step :: second) base depth (marks ++ marks') :=
  h.append h'

/-- Lines that are no headings stand where they are written. -/
theorem step {step : Sheet.Step} (hlevel : Level [step])
    (h : ∀ text ∈ step.texts, Sheet.Tight text ∧ heading? text = none) :
    Writes [step] base depth (step.texts.filterMap fun text =>
      (sign? text).map (⟨base, decide (depth = base.length), ·⟩)) := by
  have hentries : entries depth [step] = step.texts.map (⟨depth, ·⟩) := List.append_nil _
  have hlines : ∀ l ∈ entries depth [step], heading? l.text = none ∧ depth ≤ l.depth := by
    intro l hl
    rw [hentries] at hl
    obtain ⟨text, htext, rfl⟩ := List.mem_map.1 hl
    exact ⟨(h text htext).2, Nat.le_refl depth⟩
  exact {
    level := hlevel
    tight := fun text htext => (h text (by simpa [texts] using htext)).1
    reads := fun above habove => by
      rw [(habove.flat hlines).1, hentries, List.map_map, List.filterMap_map]
      rfl
    keeps := fun above habove => (habove.flat hlines).2 }

theorem nil : Writes [] base depth [] where
  level := .nil
  tight := by simp [texts]
  reads _ _ := rfl
  keeps _ habove := habove

theorem blank : Writes [.blank] base depth [] := step .blank (by simp [Sheet.Step.texts])

theorem strip : Writes [.strip] base depth [] := step .strip (by simp [Sheet.Step.texts])

/-- A line tells what it says, under the headings it stands below. -/
theorem line {text : String} {sign : Option Sign} (h : Tells text sign)
    (hsign : ∀ kind name, sign ≠ some (.opens kind name)) :
    Writes [.line text] base depth
      (sign.map (⟨base, decide (depth = base.length), ·⟩)).toList := by
  refine (step (.line text) ?_).of_eq ?_
  · exact List.forall_mem_singleton.2 ⟨h.tight, heading?_eq_none h.sign hsign⟩
  · rw [← h.sign]
    cases hs : sign? text <;> simp [Sheet.Step.texts, hs]

/-- A plain line tells nothing. -/
theorem plain {text : String} (h : Plain text) : Writes [.line text] base depth [] :=
  line h (by simp)

theorem plain_lines {text : String} (h : ∀ line ∈ (Sheet.Step.lines text).texts, Plain line) :
    Writes [.lines text] base depth [] := by
  refine (step (.lines text) fun line hline => ?_).of_eq ?_
  · exact ⟨(h line hline).tight, heading?_eq_none (h line hline).sign (by simp)⟩
  · rw [List.filterMap_eq_nil_iff]
    intro line hline
    rw [(h line hline).sign]
    rfl

theorem flatMap {items : List α} {f : α → Script} {told : α → List Mark}
    (h : ∀ a ∈ items, Writes (f a) base depth (told a)) :
    Writes (items.flatMap f) base depth (items.flatMap told) := by
  induction items with
  | nil => exact nil
  | cons a rest ih =>
    rw [List.flatMap_cons, List.flatMap_cons]
    exact (h a List.mem_cons_self).append (ih fun b hb => h b (List.mem_cons_of_mem a hb))

theorem flatMap_silent {items : List α} {f : α → Script}
    (h : ∀ a ∈ items, Writes (f a) base depth []) : Writes (items.flatMap f) base depth [] :=
  (flatMap h).of_eq (List.flatMap_eq_nil_iff.2 fun _ _ => rfl)

theorem map_plain {items : List α} {f : α → String} (h : ∀ a ∈ items, Plain (f a)) :
    Writes (items.map fun a => .line (f a)) base depth [] := by
  have hflat : (items.map fun a => Sheet.Step.line (f a)) = items.flatMap fun a => [.line (f a)] :=
    List.map_eq_flatMap
  rw [hflat]
  exact flatMap_silent fun a ha => plain (h a ha)

/-- Lines that are indented without a heading tell the same one deeper. -/
theorem deeper (h : Writes body base (depth + 1) marks) :
    Writes (.indent :: body ++ [.dedent]) base depth marks := by
  have hentries : entries depth (.indent :: body ++ [.dedent]) = entries (depth + 1) body := by
    simp only [List.cons_append, entries, Script.entries_append, Sheet.Step.texts,
      Sheet.Step.after, List.map_nil, List.nil_append, List.append_nil]
  have hbelow {above : List CodeLine} (habove : Anchored above depth base) :
      Anchored above (depth + 1) base := fun d hd => habove d (by omega)
  exact {
    level := h.level.deeper
    tight := by simpa [texts, Sheet.Step.texts] using h.tight
    reads := fun above habove => by rw [hentries, h.reads above (hbelow habove)]
    keeps := fun above habove d hd => by
      rw [hentries]
      rcases Nat.eq_or_lt_of_le hd with rfl | hlt
      · rw [around_skip, habove depth (Nat.le_refl depth)]
        intro l hl
        exact Nat.le_of_succ_le (h.level.le_depth l (List.mem_reverse.1 hl))
      · exact h.keeps above (hbelow habove) d hlt }

theorem braced_eq (head : String) (body : Script) : Script.braced head body =
    [.line (head ++ " \x7b")] ++ (.indent :: body ++ [.dedent]) ++ [.line "\x7d"] := by
  simp [Script.braced]

theorem plain_brace : Plain "\x7d" := by decide

/-- A block whose first line opens no wrapper. -/
theorem block {sign : Option Sign} (h : Tells (head ++ " \x7b") sign)
    (hsign : ∀ kind name, sign ≠ some (.opens kind name))
    (hbody : Writes body base (depth + 1) marks) :
    Writes (braced head body) base depth
      ((sign.map (⟨base, decide (depth = base.length), ·⟩)).toList ++ marks) := by
  rw [braced_eq]
  exact (((line h hsign).append hbody.deeper).append (plain plain_brace)).of_eq (List.append_nil _)

/-- A block whose first line says nothing tells what is inside. -/
theorem plain_block (h : Plain (head ++ " \x7b")) (hbody : Writes body base (depth + 1) marks) :
    Writes (braced head body) base depth marks :=
  block h (by simp) hbody

/-- A block whose first line opens a wrapper. What it holds stands under that heading, what
follows does not. -/
theorem wrapper {kind : Kind} {name : String} (htight : Sheet.Tight (head ++ " \x7b"))
    (hheading : heading? (head ++ " \x7b") = some (kind, name))
    (hbody : Writes body (base ++ [name]) (depth + 1) marks) :
    Writes (braced head body) base depth
      (⟨base, decide (depth = base.length), .opens kind name⟩ :: marks) where
  level := hbody.level.braced head
  tight := by
    have htexts : (braced head body).texts = (head ++ " \x7b") :: (body.texts ++ ["\x7d"]) := by
      simp [Script.braced, texts, Sheet.Step.texts]
    rw [htexts]
    refine List.forall_mem_cons.2 ⟨htight, List.forall_mem_append.2 ⟨hbody.tight, ?_⟩⟩
    exact List.forall_mem_singleton.2 plain_brace.tight
  reads above habove := by
    have hopen : (Placed.mark? ⟨base, depth, head ++ " \x7b"⟩) =
        some ⟨base, decide (depth = base.length), .opens kind name⟩ := by
      rw [Placed.mark?, sign?_of_heading hheading]
      rfl
    have hclose (around : List String) : Placed.mark? ⟨around, depth, "\x7d"⟩ = none := by
      rw [Placed.mark?, plain_brace.sign]
      rfl
    rw [hbody.level.entries_braced, List.cons_append, place, place_append, List.filterMap_cons,
      List.filterMap_append, hbody.reads _ (habove.heading hheading),
      habove depth (Nat.le_refl depth), hopen]
    simp [place, hclose]
  keeps above habove := by
    have hinner : ∀ l ∈ (entries (depth + 1) body).reverse ++ [⟨depth, head ++ " \x7b"⟩],
        depth ≤ l.depth := by
      refine List.forall_mem_append.2 ⟨fun l hl => ?_, List.forall_mem_singleton.2 (Nat.le_refl _)⟩
      exact Nat.le_of_succ_le (hbody.level.le_depth l (List.mem_reverse.1 hl))
    have hkept := habove.close hinner (heading?_eq_none plain_brace.sign (by simp))
    rw [hbody.level.entries_braced]
    simpa using hkept

/-- **The marks of a text are those that its script writes.** -/
theorem marks_text (h : Writes script [] 0 marks) : Code.marks script.text = marks := by
  rw [Code.marks, outline, Code.lines_text h.tight, h.reads [] anchored_nil]

end Writes
end Script
end SwiftWrap
