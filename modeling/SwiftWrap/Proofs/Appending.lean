import SwiftWrap.Swift.Code
import SwiftWrap.Proofs.Forest
import SwiftWrap.Proofs.Sheet
import Mathlib.Data.List.TakeWhile

/-! Scripts that only add lines.

A script may take back blank lines, and these could be lines that were there before it. The
scripts of generated code never do so: before they take back blank lines they have added one
that is not blank. So at a given depth they add the same lines whatever is above
(`Script.Adds`), and end at that depth. It is so at every moment of the run: what was above is
still there, and the depth is never less (`Sheet.Keeps`).

The generated code is therefore made of parts: the lines of the banner, then for each
declaration at file scope a blank line and the lines that its script writes on a sheet of its
own (`Swift.code_eq_parts`). -/
namespace SwiftWrap
open Sheet

namespace Sheet

/-! ### At every moment -/

/-- What was on the first sheet is on the second, and what has been added is as deep at least. -/
structure Continues (s t : Sheet) : Prop where
  above : ∃ added, t.above = added ++ s.above ∧ ∀ line ∈ added, ∃ text, line = tabs s.depth ++ text
  depth : s.depth ≤ t.depth

/-- A step that keeps what was on a sheet, and does not lead out of its depth. -/
structure Keeps (base s : Sheet) (step : Step) : Prop where
  continues : base.Continues (s.step step)
  dedent : step = .dedent → base.depth < s.depth

/-- Something holds at each step of a script, of the sheet on which the step is taken. -/
def Always (P : Sheet → Step → Prop) : Sheet → Script → Prop
  | _, [] => True
  | s, step :: rest => P s step ∧ Always P (s.step step) rest

/-- Tabs for a depth and for some more. -/
theorem tabs_add (depth more : Nat) : tabs (depth + more) = tabs depth ++ tabs more := by
  rw [← String.toList_inj]
  simp only [tabs, String.toList_append, String.toList_ofList, List.replicate_append_replicate]

/-- A line that is deep enough is deep enough for less. -/
theorem exists_tabs_of_le {depth depth' : Nat} (h : depth ≤ depth') (text : String) :
    ∃ text', tabs depth' ++ text = tabs depth ++ text' := by
  refine ⟨tabs (depth' - depth) ++ text, ?_⟩
  rw [← String.append_assoc, ← tabs_add, Nat.add_sub_cancel' h]

theorem Continues.refl (s : Sheet) : s.Continues s := ⟨⟨[], rfl, by simp⟩, Nat.le_refl _⟩

/-- What continues a continuation continues the sheet before it. -/
theorem Continues.trans {s t u : Sheet} (h : s.Continues t) (h' : t.Continues u) :
    s.Continues u := by
  obtain ⟨added, hadded, htabs⟩ := h.above
  obtain ⟨added', hadded', htabs'⟩ := h'.above
  refine ⟨⟨added' ++ added, by rw [hadded', hadded, List.append_assoc], ?_⟩, h.depth.trans h'.depth⟩
  refine List.forall_mem_append.2 ⟨fun line hline => ?_, htabs⟩
  obtain ⟨text, rfl⟩ := htabs' line hline
  exact exists_tabs_of_le h.depth text

/-- A step that leaves a longer sheet in place leaves every shorter one in place. -/
theorem Keeps.mono {base base' s : Sheet} {step : Step} (h : base.Continues base')
    (hkeeps : base'.Keeps s step) : base.Keeps s step :=
  ⟨h.trans hkeeps.continues, fun hstep => h.depth.trans_lt (hkeeps.dedent hstep)⟩

section Always
variable {P Q : Sheet → Step → Prop} {s : Sheet} {first second script : Script}

theorem Always.mono (h : Always P s script) (hPQ : ∀ s step, P s step → Q s step) :
    Always Q s script := by
  induction script generalizing s with
  | nil => exact trivial
  | cons step rest ih => exact ⟨hPQ s step h.1, ih h.2⟩

/-- What holds all through a script and all through the next holds through both. -/
theorem Always.append (h : Always P s first) (h' : Always P (s.run first) second) :
    Always P s (first ++ second) := by
  induction first generalizing s with
  | nil => exact h'
  | cons step rest ih => exact ⟨h.1, ih h.2 h'⟩

/-- A condition at every moment holds before any one step. -/
theorem Always.at {step : Step} {before after : Script}
    (h : Always P s (before ++ step :: after)) : P (s.run before) step := by
  induction before generalizing s with
  | nil => exact h.1
  | cons step' rest ih => exact ih h.2

end Always
end Sheet

namespace Script

/-- Whatever is above, the script adds the same lines, of which the last comes first, and ends
at the depth at which it started. -/
structure Adds (script : Script) (depth : Nat) (lines : List String) : Prop where
  run_eq : ∀ above, run ⟨above, depth⟩ script = ⟨lines ++ above, depth⟩
  deep : ∀ line ∈ lines, ∃ text, line = tabs depth ++ text
  always : ∀ above, Always (Keeps ⟨above, depth⟩) ⟨above, depth⟩ script

namespace Adds
variable {script first second body : Script} {depth : Nat} {added added' : List String}

/-- Adding lines keeps those before them. -/
theorem continues (h : Adds script depth added) (above : List String) :
    Continues ⟨above, depth⟩ ⟨added ++ above, depth⟩ :=
  ⟨⟨added, rfl, h.deep⟩, Nat.le_refl depth⟩

theorem nil : Adds [] depth [] := ⟨fun _ => rfl, by simp, fun _ => trivial⟩

/-- A step that adds lines and leaves the depth. -/
theorem of_step {step : Step} (hstep : step ≠ .dedent)
    (h : ∀ above, Sheet.step ⟨above, depth⟩ step = ⟨added ++ above, depth⟩)
    (hdeep : ∀ line ∈ added, ∃ text, line = tabs depth ++ text) : Adds [step] depth added := by
  refine ⟨h, hdeep, fun above => ⟨⟨?_, fun heq => absurd heq hstep⟩, trivial⟩⟩
  rw [h above]
  exact ⟨⟨added, rfl, hdeep⟩, Nat.le_refl depth⟩

theorem line (text : String) : Adds [.line text] depth [tabs depth ++ text] :=
  .of_step nofun (fun _ => rfl) (List.forall_mem_singleton.2 ⟨text, rfl⟩)

theorem blank : Adds [.blank] depth [tabs depth ++ ""] :=
  .of_step nofun (fun _ => rfl) (List.forall_mem_singleton.2 ⟨"", rfl⟩)

/-- The lines of the second script come below those of the first. -/
theorem append (h : Adds first depth added) (h' : Adds second depth added') :
    Adds (first ++ second) depth (added' ++ added) where
  run_eq above := by rw [run_append, h.run_eq, h'.run_eq, List.append_assoc]
  deep := List.forall_mem_append.2 ⟨h'.deep, h.deep⟩
  always above := by
    refine (h.always above).append ?_
    rw [h.run_eq]
    exact (h'.always _).mono fun _ _ => Keeps.mono (h.continues above)

/-- Between an indent and its dedent, a script adds its lines one deeper. -/
theorem deeper (h : Adds body (depth + 1) added) :
    Adds (.indent :: body ++ [.dedent]) depth added where
  run_eq above := by
    have hbody : run ⟨above, depth⟩ (.indent :: body) = ⟨added ++ above, depth + 1⟩ :=
      h.run_eq above
    rw [run_append, hbody]
    rfl
  deep line hline := by
    obtain ⟨text, rfl⟩ := h.deep line hline
    exact exists_tabs_of_le (Nat.le_succ depth) text
  always above := by
    have hinner : Continues ⟨above, depth⟩ ⟨above, depth + 1⟩ :=
      ⟨⟨[], rfl, by simp⟩, Nat.le_succ depth⟩
    have hbody : run ⟨above, depth + 1⟩ body = ⟨added ++ above, depth + 1⟩ := h.run_eq above
    refine ⟨⟨hinner, nofun⟩, ((h.always above).mono fun _ _ => Keeps.mono hinner).append ?_⟩
    show Always _ (run ⟨above, depth + 1⟩ body) _
    rw [hbody]
    have hout := hinner.trans (h.continues above)
    exact ⟨⟨⟨hout.above, Nat.le_refl depth⟩, fun _ => Nat.lt_succ_self depth⟩, trivial⟩

/-- A text of several lines has each of them at the depth of the script. -/
theorem lines (text : String) :
    Adds [.lines text] depth ((linesOf text).map (tabs depth ++ ·)).reverse := by
  refine .of_step nofun (fun above => ?_) fun line hline => ?_
  · show (linesOf text).foldl add ⟨above, depth⟩ = _
    induction linesOf text generalizing above with
    | nil => rfl
    | cons line rest ih =>
      rw [List.foldl_cons, add, ih, List.map_cons, List.reverse_cons, List.append_assoc]
      rfl
  · obtain ⟨text, -, rfl⟩ := List.mem_map.1 (List.mem_reverse.1 hline)
    exact ⟨text, rfl⟩

/-- Blank lines are taken back only down to a line that is not blank. -/
theorem strip (h : Adds script depth added) (hink : ∃ line ∈ added, isBlankLine line = false) :
    Adds (script ++ [.strip]) depth (added.dropWhile isBlankLine) := by
  obtain ⟨line, hmem, hline⟩ := hink
  have hne : added.dropWhile isBlankLine ≠ [] := by
    rw [ne_eq, List.dropWhile_eq_nil_iff]
    exact fun hall => by simp [hall line hmem] at hline
  have hdrop (above : List String) : step ⟨added ++ above, depth⟩ .strip =
      ⟨added.dropWhile isBlankLine ++ above, depth⟩ := by
    show Sheet.mk ((added ++ above).dropWhile isBlankLine) depth = _
    rw [List.dropWhile_append, if_neg (by simpa using hne)]
  have hdeep : ∀ line ∈ added.dropWhile isBlankLine, ∃ text, line = tabs depth ++ text :=
    fun line hline => h.deep line ((List.dropWhile_sublist _).mem hline)
  refine ⟨fun above => ?_, hdeep, fun above => (h.always above).append ?_⟩
  · rw [run_append, h.run_eq]
    exact hdrop above
  · rw [h.run_eq]
    refine ⟨⟨?_, nofun⟩, trivial⟩
    rw [hdrop]
    exact ⟨⟨_, rfl, hdeep⟩, Nat.le_refl depth⟩

end Adds

/-- At every depth the script only adds lines. -/
def Appends (script : Script) : Prop := ∀ depth, ∃ lines, script.Adds depth lines

/-- At every depth the script only adds lines, one of which is not blank. -/
def Inks (script : Script) : Prop :=
  ∀ depth, ∃ lines, script.Adds depth lines ∧ ∃ line ∈ lines, isBlankLine line = false

/-- A script that writes something visible adds lines at every depth. -/
theorem Inks.appends {script : Script} (h : Inks script) : Appends script := by
  intro depth
  obtain ⟨lines, hadds, -⟩ := h depth
  exact ⟨lines, hadds⟩

namespace Appends
variable {first second body : Script}

theorem nil : Appends [] := fun _ => ⟨[], .nil⟩

theorem line (text : String) : Appends [.line text] := fun _ => ⟨_, .line text⟩

theorem blank : Appends [.blank] := fun _ => ⟨_, .blank⟩

theorem append (h : Appends first) (h' : Appends second) : Appends (first ++ second) := by
  intro depth
  obtain ⟨lines, hadds⟩ := h depth
  obtain ⟨lines', hadds'⟩ := h' depth
  exact ⟨_, hadds.append hadds'⟩

theorem cons_line (text : String) (h : Appends second) : Appends (.line text :: second) :=
  (line text).append h

theorem cons_blank (h : Appends second) : Appends (.blank :: second) := blank.append h

theorem map_line (items : List α) (f : α → String) : Appends (items.map fun a => .line (f a)) := by
  induction items with
  | nil => exact nil
  | cons a rest ih => exact cons_line (f a) ih

theorem flatMap {items : List α} {f : α → Script} (h : ∀ a ∈ items, Appends (f a)) :
    Appends (items.flatMap f) := by
  induction items with
  | nil => exact nil
  | cons a rest ih =>
    rw [List.flatMap_cons]
    exact (h a List.mem_cons_self).append (ih fun b hb => h b (List.mem_cons_of_mem a hb))

theorem lines (text : String) : Appends [.lines text] := fun _ => ⟨_, .lines text⟩

/-- What is written for a declaration around what is written for those in it. -/
theorem collect {s : Schema} {node : Nat → Declaration → Script → Script}
    (h : ∀ id d nested, Appends nested → Appends (node id d nested)) (id : Nat) :
    Appends (s.collect node id) := by
  induction id using s.downward_induction with
  | step id ih =>
    cases hd : s.get? id with
    | none =>
      rw [Schema.collect_of_none hd]
      exact nil
    | some d =>
      rw [Schema.collect_of_get? hd]
      refine h id d _ (flatMap fun c _ => ?_)
      split
      · next hlt => exact ih (Schema.lt_of_get? hd) c hlt
      · exact nil

end Appends

/-- A block in braces ends with its brace. -/
theorem exists_adds_braced {body : Script} (h : Appends body) (head : String) (depth : Nat) :
    ∃ lines, Adds (braced head body) depth ((tabs depth ++ "\x7d") :: lines) := by
  obtain ⟨lines, hbody⟩ := h (depth + 1)
  have heq : braced head body =
      [.line (head ++ " \x7b")] ++ (.indent :: body ++ [.dedent]) ++ [.line "\x7d"] := by
    simp [braced]
  rw [heq]
  exact ⟨_, ((Adds.line _).append hbody.deeper).append (.line _)⟩

/-- A closing brace can be seen, so nothing in front of it is taken back. -/
theorem isBlankLine_brace (depth : Nat) : isBlankLine (tabs depth ++ "\x7d") = false := by
  have hbrace : isBlankLine "\x7d" = false := by decide
  rw [isBlankLine_append, hbrace, Bool.and_false]

namespace Inks
variable {first second body : Script}

theorem braced (h : Appends body) (head : String) : Inks (braced head body) := by
  intro depth
  obtain ⟨lines, hadds⟩ := exists_adds_braced h head depth
  exact ⟨_, hadds, _, List.mem_cons_self, isBlankLine_brace depth⟩

theorem line {text : String} (h : isBlankLine text = false) : Inks [.line text] := by
  refine fun depth => ⟨_, .line text, _, List.mem_cons_self, ?_⟩
  rw [isBlankLine_append, h, Bool.and_false]

theorem append (h : Inks first) (h' : Appends second) : Inks (first ++ second) := by
  intro depth
  obtain ⟨lines, hadds, line, hmem, hline⟩ := h depth
  obtain ⟨lines', hadds'⟩ := h' depth
  exact ⟨_, hadds.append hadds', line, List.mem_append_right lines' hmem, hline⟩

theorem behind (h : Inks second) (h' : Appends first) : Inks (first ++ second) := by
  intro depth
  obtain ⟨lines, hadds, line, hmem, hline⟩ := h depth
  obtain ⟨lines', hadds'⟩ := h' depth
  exact ⟨_, hadds'.append hadds, line, List.mem_append_left lines' hmem, hline⟩

theorem strip (h : Inks first) : Appends (first ++ [.strip]) := by
  intro depth
  obtain ⟨lines, hadds, hink⟩ := h depth
  exact ⟨_, hadds.strip hink⟩

end Inks

/-- A block in braces only adds lines if what stands in it does. -/
theorem Appends.braced {body : Script} (h : Appends body) (head : String) :
    Appends (braced head body) :=
  (Inks.braced h head).appends

/-- So does what is indented and dedented again. -/
theorem Appends.deeper {body : Script} (h : Appends body) :
    Appends (.indent :: body ++ [.dedent]) := by
  intro depth
  obtain ⟨lines, hadds⟩ := h (depth + 1)
  exact ⟨lines, hadds.deeper⟩

/-! ### Finished lines -/

/-- The lines of a text, one under the other. -/
def unlines (lines : List String) : String := "\n".intercalate lines ++ "\n"

/-- The lines of the text that a script writes. -/
def lines (script : Script) : List String :=
  ((empty.run script).above.dropWhile isBlankLine).reverse.map trimLine

/-- The text of a script is its lines, with a line break behind each. -/
theorem text_eq_unlines (script : Script) : script.text = unlines script.lines := rfl

/-- At every depth the script only adds lines, the last of which is blank, and the one before it
is not. -/
def Finishes (script : Script) : Prop :=
  ∀ depth, ∃ last added, isBlankLine last = false ∧ script.Adds depth (tabs depth :: last :: added)

namespace Finishes
variable {first second : Script}

/-- A script that finishes its lines only adds. -/
theorem appends (h : Finishes first) : Appends first := by
  intro depth
  obtain ⟨last, added, -, hadds⟩ := h depth
  exact ⟨_, hadds⟩

/-- A block in braces with a blank line behind it finishes its lines. -/
theorem braced {body : Script} (h : Appends first) (hbody : Appends body) (head : String) :
    Finishes (first ++ braced head body ++ [.blank]) := by
  intro depth
  obtain ⟨added, hfirst⟩ := h depth
  obtain ⟨inner, hblock⟩ := exists_adds_braced hbody head depth
  have hadds := (hfirst.append hblock).append .blank
  rw [String.append_empty] at hadds
  exact ⟨_, _, isBlankLine_brace depth, hadds⟩

/-- What stands in front of a finished script changes nothing about its end. -/
theorem behind (h : Finishes second) (h' : Appends first) : Finishes (first ++ second) := by
  intro depth
  obtain ⟨last, added, hlast, hadds⟩ := h depth
  obtain ⟨above, habove⟩ := h' depth
  exact ⟨last, _, hlast, habove.append hadds⟩

/-- What is behind a finished script stands under a blank line. -/
theorem lines_append (h : Finishes first) (h' : Finishes second) :
    (first ++ second).lines = first.lines ++ "" :: second.lines := by
  obtain ⟨last, added, hlast, hadds⟩ := h 0
  obtain ⟨last', added', hlast', hadds'⟩ := h' 0
  have hempty : isBlankLine (tabs 0) = true := by decide
  have hfirst : empty.run first = ⟨(tabs 0 :: last :: added) ++ [], 0⟩ := hadds.run_eq []
  have hsecond : empty.run second = ⟨(tabs 0 :: last' :: added') ++ [], 0⟩ := hadds'.run_eq []
  have hboth : empty.run (first ++ second) = ⟨_ ++ [], 0⟩ := (hadds.append hadds').run_eq []
  have htrim : trimLine (tabs 0) = "" := by decide
  simp only [lines, hfirst, hsecond, hboth, List.append_nil, List.cons_append,
    List.dropWhile_cons, hempty, hlast, hlast', if_true, Bool.false_eq_true, if_false,
    List.reverse_cons, List.reverse_append, List.map_append, List.map_cons, List.map_nil, htrim,
    List.append_assoc, List.nil_append]

/-- Finished scripts in a row have their lines one behind the other, with a blank line between
any two. -/
theorem lines_flatMap {items : List α} {f : α → Script} (h : Finishes first)
    (hitems : ∀ a ∈ items, Finishes (f a)) :
    (first ++ items.flatMap f).lines = first.lines ++ items.flatMap fun a => "" :: (f a).lines := by
  induction items generalizing first with
  | nil => simp
  | cons a rest ih =>
    obtain ⟨ha, hrest⟩ := List.forall_mem_cons.1 hitems
    rw [List.flatMap_cons, List.flatMap_cons, ← List.append_assoc, ih (ha.behind h.appends) hrest,
      h.lines_append ha, List.append_assoc]

end Finishes
end Script

/-! ### The scripts of generated code -/

namespace Swift
open Script
variable (s : Schema)

theorem appends_properties (fields : List Field) : Appends (properties s fields) := by
  unfold properties
  refine (Appends.map_line fields _).append ?_
  split
  · exact .nil
  · exact .blank

theorem appends_initializer (fields : List Field) : Appends (initializer s fields) := by
  unfold initializer
  split
  · exact (Appends.nil.braced _).append .blank
  · exact ((Appends.map_line fields _).braced _).append .blank

/-- The method that writes bytes is the same in every class. -/
theorem inks_serializer : Inks serializer := by
  have hblock := Inks.braced (.line "return try self.asProtobuf.serializedData()")
    "public func serializedData() throws -> Data"
  exact (hblock.append .blank).behind (.line "@objc")

theorem appends_requiredGuard (error : String) (d : Declaration) (f : Field) :
    Appends (requiredGuard error d f) := by
  unfold requiredGuard
  split
  · exact (Appends.line _).braced _
  · exact .nil

/-- However a field is read, reading it only adds lines. -/
theorem appends_readField (f : Field) : Appends (readField s f) := by
  unfold readField
  simp only
  split
  · exact .cons_line _ ((Appends.line _).braced _)
  split
  · exact .line _
  split
  · exact .cons_line _ ((Appends.line _).braced _)
  · exact .line _

/-- The two functions that read a message only add lines. -/
theorem appends_parsers (id : Nat) (d : Declaration) : Appends (parsers s id d) := by
  have hfields : Appends (d.fields.flatMap fun f =>
      requiredGuard (errorRef s id) d f ++ readField s f ++ [.blank]) :=
    .flatMap fun f _ =>
      ((appends_requiredGuard _ d f).append (appends_readField s f)).append .blank
  unfold parsers
  refine .append (.append (.cons_line _ ?_) (.cons_blank ?_)) .blank
  · exact (Appends.cons_line _ (.line _)).braced _
  · exact (hfields.append (.line _)).braced _

/-- Every field has a visible line in the builder, so the blank lines that are taken back there
are its own. -/
theorem inks_buildField (f : Field) : Inks (buildField s f) := by
  unfold buildField
  split
  · exact ((Inks.braced (.line _) _).append (.line _)).behind (.line _)
  split
  · exact .braced (.line _) _
  · apply Inks.line
    have hlead : isBlankLine "builder." = false := by decide
    simp [isBlankLine_append, toString, hlead]

theorem inks_buildFields {fields : List Field} (h : fields ≠ []) :
    Inks (fields.flatMap fun f => buildField s f ++ [.blank]) := by
  cases fields with
  | nil => exact absurd rfl h
  | cons f rest =>
    rw [List.flatMap_cons]
    refine ((inks_buildField s f).append .blank).append (.flatMap fun f _ => ?_)
    exact (inks_buildField s f).appends.append .blank

/-- The builder takes back blank lines, but none from before it. -/
theorem appends_builder (d : Declaration) : Appends (builder s d) := by
  unfold builder
  refine .append (Appends.braced ?_ _) .blank
  split
  · exact .line _
  · next hfields =>
    have hbody := (inks_buildFields s (by simpa using hfields)).strip.deeper
    simpa using Appends.cons_line _ (hbody.append (.cons_line "\x7d" (.cons_blank (.line _))))

theorem appends_errorEnum (d : Declaration) : Appends (errorEnum d) := by
  unfold errorEnum
  split
  · exact ((Appends.line _).braced _).append .blank
  · exact .nil

/-- Inside a class there is always more than blank lines. -/
theorem appends_class (id : Nat) (d : Declaration) {nested : Script} (h : Appends nested) :
    Appends (.blank :: errorEnum d ++ nested ++ properties s d.fields ++ initializer s d.fields ++
      serializer ++ parsers s id d ++ builder s d ++ [.strip]) := by
  have hfront := (((Appends.cons_blank (appends_errorEnum d)).append h).append
    (appends_properties s d.fields)).append (appends_initializer s d.fields)
  have hink := (inks_serializer.behind hfront).append (appends_parsers s id d)
  exact (hink.append (appends_builder s d)).strip

/-- The wrapper of a message finishes its lines, whatever stands nested in it. -/
theorem finishes_messageScript (id : Nat) (d : Declaration) {nested : Script}
    (h : Appends nested) : Finishes (messageScript s id d nested) :=
  .braced (.cons_line _ .blank) (appends_class s id d h) _

theorem finishes_converterScript (names : List String) (function source target : String) :
    Finishes (converterScript names function source target) :=
  .braced .nil (.append (.cons_line _ (.map_line names _)) (.line _)) _

/-- So does that of an enum, which ends with its second converter. -/
theorem finishes_enumScript (d : Declaration) (items : List Item) :
    Finishes (enumScript d items) := by
  unfold enumScript
  refine .behind (finishes_converterScript _ _ _ _)
    (.append (.append (.cons_line _ .blank) ?_) (.cons_blank ?_))
  · exact (Appends.map_line (cases items) _).braced _
  · exact (finishes_converterScript _ _ _ _).appends

/-- So does every wrapper. -/
theorem finishes_declarationScript (id : Nat) (d : Declaration) {nested : Script}
    (h : Appends nested) : Finishes (declarationScript s id d nested) := by
  unfold declarationScript
  split
  · exact finishes_messageScript s id d h
  · exact finishes_enumScript d _

/-- The script of a declaration and everything below it. -/
def wrapperScript (id : Nat) : Script := s.collect (declarationScript s) id

/-- With everything below it, a declaration only adds lines. -/
theorem appends_wrapperScript (id : Nat) : Appends (wrapperScript s id) :=
  .collect (fun k d _ h => (finishes_declarationScript s k d h).appends) id

/-- A declaration with everything below it finishes its lines. -/
theorem finishes_wrapperScript {id : Nat} {d : Declaration} (hd : s.get? id = some d) :
    Finishes (wrapperScript s id) := by
  rw [wrapperScript, Schema.collect_of_get? hd]
  refine finishes_declarationScript s id d (.flatMap fun c _ => ?_)
  split
  · exact appends_wrapperScript s c
  · exact .nil

theorem finishes_banner : Finishes [.lines banner] := by
  intro depth
  have hlines : linesOf banner = ["//", "//  Generated by protowrap. Do not edit.", "//", "",
      "import Foundation", "import SwiftProtobuf", ""] := by rfl
  have hlast : isBlankLine (tabs depth ++ "import SwiftProtobuf") = false := by
    have hink : isBlankLine "import SwiftProtobuf" = false := by decide
    rw [isBlankLine_append, hink, Bool.and_false]
  have hadds : Adds [.lines banner] depth _ := .lines banner
  rw [hlines] at hadds
  simp only [List.map_cons, List.map_nil, List.reverse_cons, List.reverse_nil, List.nil_append,
    List.cons_append, String.append_empty] at hadds
  exact ⟨_, _, hlast, hadds⟩

/-- The lines above the wrappers. -/
def headLines : List String := lines [.lines banner]

/-- The lines that stand for a declaration at file scope: a blank line, and those of its script
alone. -/
def wrapperLines (id : Nat) : List String := "" :: (wrapperScript s id).lines

/-- **Generated code is made of parts**, one for each declaration at file scope. -/
theorem code_eq_parts (h : ∀ root ∈ s.roots, ∃ d, s.get? root = some d) :
    code s = unlines (headLines ++ s.roots.flatMap (wrapperLines s)) := by
  have hroots : ∀ root ∈ s.roots, Finishes (wrapperScript s root) := by
    intro root hroot
    obtain ⟨d, hd⟩ := h root hroot
    exact finishes_wrapperScript s hd
  rw [code, text_eq_unlines, script]
  exact congrArg unlines (finishes_banner.lines_flatMap hroots)

end Swift
end SwiftWrap
