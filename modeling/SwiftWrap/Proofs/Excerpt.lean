import SwiftWrap.Proofs.Appending
import SwiftWrap.Proofs.Cases
import SwiftWrap.Proofs.Emission

/-! What stands together in generated code.

Lines that a part of a script adds stand in the text of the whole script one below the other, as
they were added, but for the tabs in front of them: a script that only adds lines around them takes
none of them back, if the last of them is not blank (`Script.Shows`).

An enum is three parts: the enum itself, with its cases, and the two functions that convert it. Each
of them is in the generated code as one piece (`Swift.listsItems_script`). -/
namespace SwiftWrap
open Text Sheet

/-- Some lines stand together among others, all behind the same tabs. -/
def IsExcerpt (texts lines : List String) : Prop :=
  ∃ depth, texts.map (tabs depth ++ ·) <:+: lines

/-- A line that ends in something to be seen. -/
def EndsInInk (text : String) : Prop := ∃ c ∈ text.toList.getLast?, isBlank c = false

instance (text : String) : Decidable (EndsInInk text) :=
  decidable_of_iff (text.toList.getLast?.any (!isBlank ·) = true) <| by
    simp [EndsInInk, Option.any_eq_true]

/-- Lines that all end so. There is one of them at least. -/
structure Solid (texts : List String) : Prop where
  nonempty : texts ≠ []
  ends : ∀ text ∈ texts, EndsInInk text

/-- The last of them is not blank, however deep it is. -/
theorem Solid.exists_last {texts : List String} (h : Solid texts) (depth : Nat) :
    ∃ last ∈ (texts.map (tabs depth ++ ·)).getLast?, isBlankLine last = false := by
  obtain ⟨c, hc, hink⟩ := h.ends _ (List.getLast_mem h.nonempty)
  refine ⟨tabs depth ++ texts.getLast h.nonempty, ?_, ?_⟩
  · rw [List.getLast?_map, List.getLast?_eq_some_getLast h.nonempty]
    rfl
  · rw [isBlankLine_tabs]
    exact isBlankLine_eq_false_iff.2 ⟨c, List.mem_of_getLast? hc, hink⟩

namespace Script

/-- The script adds just these lines. -/
def Prints (script : Script) (texts : List String) : Prop :=
  ∀ depth, script.Adds depth (texts.map (tabs depth ++ ·)).reverse

/-- The script only adds lines, these among them. -/
def Shows (script : Script) (texts : List String) : Prop :=
  ∀ depth, ∃ added, script.Adds depth added ∧
    ∃ more, texts.map (tabs (depth + more) ++ ·) <:+: added.reverse

namespace Prints
variable {first second body : Script} {texts texts' : List String}

theorem line (text : String) : Prints [.line text] [text] := fun _ => .line text

/-- What two scripts print, the one behind the other. -/
theorem append (h : Prints first texts) (h' : Prints second texts') :
    Prints (first ++ second) (texts ++ texts') := by
  intro depth
  have hboth := (h depth).append (h' depth)
  rwa [← List.reverse_append, ← List.map_append] at hboth

theorem map_line (items : List α) (f : α → String) :
    Prints (items.map fun a => .line (f a)) (items.map f) := by
  induction items with
  | nil => exact fun _ => .nil
  | cons a rest ih => exact (line (f a)).append ih

theorem deeper (h : Prints body texts) :
    Prints (.indent :: body ++ [.dedent]) (texts.map ("\t" ++ ·)) := by
  intro depth
  have hbody := (h (depth + 1)).deeper
  have htab : tabs 1 = "\t" := by decide
  have htabs (text : String) : tabs (depth + 1) ++ text = tabs depth ++ ("\t" ++ text) := by
    rw [tabs_add, htab, String.append_assoc]
  simp only [htabs] at hbody
  rwa [List.map_map]

theorem braced (h : Prints body texts) (head : String) :
    Prints (braced head body) ((head ++ " \x7b") :: texts.map ("\t" ++ ·) ++ ["\x7d"]) := by
  have hall := ((line (head ++ " \x7b")).append h.deeper).append (line "\x7d")
  simpa [Script.braced] using hall

/-- What a script prints, it shows. -/
theorem shows (h : Prints body texts) : Shows body texts := by
  intro depth
  refine ⟨_, h depth, 0, ?_⟩
  simp only [Nat.add_zero, List.reverse_reverse, List.infix_rfl]

end Prints

/-- Blank lines are taken back only behind what is not blank. -/
theorem infix_dropWhile {texts added : List String} (h : texts <:+: added.reverse)
    (hlast : ∃ last ∈ texts.getLast?, isBlankLine last = false) :
    texts <:+: (added.dropWhile isBlankLine).reverse := by
  obtain ⟨front, back, heq⟩ := h
  obtain ⟨last, hmem, hink⟩ := hlast
  obtain ⟨body, rfl⟩ := List.getLast?_eq_some_iff.1 hmem
  have hadded : added = back.reverse ++ last :: (front ++ body).reverse := by
    rw [← List.reverse_inj, ← heq]
    simp
  refine ⟨front, (back.reverse.dropWhile isBlankLine).reverse, ?_⟩
  have hdrop : added.dropWhile isBlankLine =
      back.reverse.dropWhile isBlankLine ++ last :: (front ++ body).reverse := by
    rw [hadded, List.dropWhile_append]
    split
    · next hnil => simp [hink, List.isEmpty_iff.1 hnil]
    · rfl
  simp [hdrop]

namespace Shows
variable {first second body : Script} {texts : List String}

/-- Lines that are shown stay together, whatever is added behind them. -/
theorem append (h : Shows first texts) (h' : Appends second) : Shows (first ++ second) texts := by
  intro depth
  obtain ⟨added, hadds, more, hpart⟩ := h depth
  obtain ⟨added', hadds'⟩ := h' depth
  refine ⟨_, hadds.append hadds', more, ?_⟩
  rw [List.reverse_append]
  exact hpart.trans (List.prefix_append ..).isInfix

theorem behind (h : Shows second texts) (h' : Appends first) : Shows (first ++ second) texts := by
  intro depth
  obtain ⟨added, hadds, more, hpart⟩ := h depth
  obtain ⟨added', hadds'⟩ := h' depth
  refine ⟨_, hadds'.append hadds, more, ?_⟩
  rw [List.reverse_append]
  exact hpart.trans (List.suffix_append ..).isInfix

theorem deeper (h : Shows body texts) : Shows (.indent :: body ++ [.dedent]) texts := by
  intro depth
  obtain ⟨added, hadds, more, hpart⟩ := h (depth + 1)
  exact ⟨added, hadds.deeper, 1 + more, by rwa [← Nat.add_assoc]⟩

theorem braced (h : Shows body texts) (head : String) : Shows (braced head body) texts := by
  have hall := (h.deeper.behind (.line (head ++ " \x7b"))).append (.line "\x7d")
  simpa [Script.braced] using hall

theorem flatMap {items : List α} {f : α → Script} {a : α} (ha : a ∈ items) (h : Shows (f a) texts)
    (hall : ∀ b ∈ items, Appends (f b)) : Shows (items.flatMap f) texts := by
  obtain ⟨front, back, rfl⟩ := List.append_of_mem ha
  rw [List.flatMap_append, List.flatMap_cons]
  refine (h.append ?_).behind ?_
  · exact .flatMap fun b hb => hall b (by simp [hb])
  · exact .flatMap fun b hb => hall b (by simp [hb])

/-- Taking back blank lines leaves what ends in ink. -/
theorem strip (h : Shows body texts) (hsolid : Solid texts) : Shows (body ++ [.strip]) texts := by
  intro depth
  obtain ⟨added, hadds, more, hpart⟩ := h depth
  obtain ⟨last, hmem, hink⟩ := hsolid.exists_last (depth + more)
  have hin : last ∈ added := List.mem_reverse.1 (hpart.subset (List.mem_of_getLast? hmem))
  exact ⟨_, hadds.strip ⟨last, hin, hink⟩, more, infix_dropWhile hpart ⟨last, hmem, hink⟩⟩

/-- What is shown stands in the text. -/
theorem isExcerpt (h : Shows body texts) (hsolid : Solid texts) : IsExcerpt texts body.lines := by
  obtain ⟨added, hadds, more, hpart⟩ := h 0
  have hrun : empty.run body = ⟨added ++ [], 0⟩ := hadds.run_eq []
  have hlines := (infix_dropWhile hpart (hsolid.exists_last _)).map trimLine
  have htrim : (texts.map (tabs (0 + more) ++ ·)).map trimLine =
      texts.map (tabs (0 + more) ++ ·) := by
    rw [List.map_map]
    exact List.map_congr_left fun text htext => trimLine_tabs (hsolid.ends text htext) _
  refine ⟨0 + more, ?_⟩
  rw [htrim] at hlines
  rwa [lines, hrun, List.append_nil]

end Shows
end Script

/-! ### Declarations -/

namespace Swift
open Script
variable (s : Schema) {texts : List String}

/-- A wrapper shows what is nested in it. -/
theorem shows_messageScript {id : Nat} {d : Declaration} {nested : Script} (h : Shows nested texts)
    (hsolid : Solid texts) : Shows (messageScript s id d nested) texts := by
  have hfront : Appends (.blank :: errorEnum d) := .cons_blank (appends_errorEnum d)
  have hbody := (((((h.behind hfront).append (appends_properties s d.fields)).append
    (appends_initializer s d.fields)).append inks_serializer.appends).append
    (appends_parsers s id d)).append (appends_builder s d)
  exact (((hbody.strip hsolid).braced _).behind (.cons_line _ .blank)).append .blank

/-- What is shown for a declaration is shown for every declaration around it. -/
theorem shows_wrapperScript {id around : Nat} (hid : id ∈ s.subtree around)
    (h : Shows (wrapperScript s id) texts) (hsolid : Solid texts) :
    Shows (wrapperScript s around) texts := by
  induction around using s.downward_induction with
  | step around ih =>
    cases hd : s.get? around with
    | none =>
      rw [Schema.subtree, Schema.collect_of_none hd] at hid
      cases hid
    | some d =>
      rw [Schema.subtree_of_get? hd] at hid
      rcases List.mem_cons.1 hid with rfl | hbelow
      · exact h
      · obtain ⟨c, hc, hmem⟩ := List.mem_flatMap.1 hbelow
        split at hmem
        · next hlt =>
          have hinner := ih (Schema.lt_of_get? hd) c hlt hmem
          have hnested : Shows (d.children.flatMap fun c =>
              if around < c then wrapperScript s c else []) texts := by
            refine .flatMap hc (by rwa [if_pos hlt]) fun c _ => ?_
            split
            · exact appends_wrapperScript s c
            · exact .nil
          rw [wrapperScript, Schema.collect_of_get? hd]
          obtain ⟨name, parent, body, names⟩ := d
          cases body with
          | message children fields => exact shows_messageScript s hnested hsolid
          | enumeration items => cases hc
        · cases hmem

/-- What is shown for a declaration stands in the generated code. -/
theorem isExcerpt_script {id : Nat} (hid : id ∈ s.listed) (h : Shows (wrapperScript s id) texts)
    (hsolid : Solid texts) : IsExcerpt texts (script s).lines := by
  obtain ⟨root, hroot, hbelow⟩ := List.mem_flatMap.1 hid
  have hshows := shows_wrapperScript s hbelow h hsolid
  have hall := Shows.flatMap hroot hshows fun root _ => appends_wrapperScript s root
  exact (hall.behind (.lines banner)).isExcerpt hsolid

/-! ### Enums -/

/-- The lines of an enum, for its items in a given order. -/
def enumTexts (names : Names) (items : List Item) : List String :=
  (s!"@objc public enum {names.wrapper}: Int32" ++ " \x7b") ::
    (items.map fun i => "\t" ++ s!"case {escaped (itemCase i.name)} = {i.index}") ++ ["\x7d"]

/-- The lines of a function that converts an enum, for its items in a given order. -/
def converterTexts (function source target : String) (items : List Item) : List String :=
  (s!"fileprivate class func {function}(_ value: {source}) -> {target}" ++ " \x7b") ::
    ("\t" ++ "switch value \x7b") ::
    (items.map fun i => "\t" ++ s!"case {reference i}: return {reference i}") ++
    ["\t" ++ "\x7d", "\x7d"]

/-- The cases of an enum are printed in the order of their indices. -/
theorem prints_cases (names : Names) (items : List Item) :
    Prints (braced s!"@objc public enum {names.wrapper}: Int32" (caseLines items))
      (enumTexts names (byIndex items)) := by
  have hcases := Prints.map_line (cases items) fun entry => s!"case {escaped entry.1} = {entry.2}"
  have hall := hcases.braced s!"@objc public enum {names.wrapper}: Int32"
  simp only [caseLines, cases, List.map_map, Function.comp_def] at hall ⊢
  exact hall

theorem shows_converterScript (function source target : String) (items : List Item) :
    Shows (converterScript ((cases items).map Prod.fst) function source target)
      (converterTexts function source target (byIndex items)) := by
  have harms := Prints.map_line ((cases items).map Prod.fst) fun name =>
    s!"case {member name}: return {member name}"
  have hbody := ((Prints.line "switch value \x7b").append harms).append (.line "\x7d")
  have hblock := (hbody.braced
    s!"fileprivate class func {function}(_ value: {source}) -> {target}").shows.append .blank
  rw [cases_names] at hblock ⊢
  simpa [converterScript, converterTexts, reference, Function.comp_def] using hblock

/-- The three parts of an enum are shown each as one piece. -/
theorem shows_enumScript (d : Declaration) (items : List Item) :
    Shows (enumScript d items) (enumTexts d.names (byIndex items)) ∧
    Shows (enumScript d items) (converterTexts s!"{d.names.wrapper}Wrap" d.names.wire d.names.path
      (byIndex items)) ∧
    Shows (enumScript d items) (converterTexts s!"{d.names.wrapper}Unwrap" d.names.path d.names.wire
      (byIndex items)) := by
  have hmark : Appends [.line (markLine d), .blank] := .cons_line _ .blank
  have hcases := (prints_cases d.names items).shows
  have hfront : Appends ([.line (markLine d), .blank] ++
      braced s!"@objc public enum {d.names.wrapper}: Int32" (caseLines items)) :=
    hmark.append ((Appends.map_line (cases items) _).braced _)
  have hwrap : Appends (wrapScript d items) := (finishes_converterScript _ _ _ _).appends
  have hunwrap : Appends (unwrapScript d items) := (finishes_converterScript _ _ _ _).appends
  refine ⟨?_, ?_, ?_⟩
  · exact ((hcases.behind hmark).append hwrap.cons_blank).append hunwrap
  · exact (((shows_converterScript _ _ _ _).behind .blank).behind hfront).append hunwrap
  · exact (shows_converterScript _ _ _ _).behind (hfront.append hwrap.cons_blank)

theorem endsInInk_append (front : String) {back : String} (h : EndsInInk back) :
    EndsInInk (front ++ back) := by
  obtain ⟨c, hc, hink⟩ := h
  refine ⟨c, ?_, hink⟩
  rw [String.toList_append, List.getLast?_append, Option.mem_def.1 hc]
  rfl

theorem endsInInk_of_forall {text : String} (hne : text.toList ≠ [])
    (h : ∀ c ∈ text.toList, isBlank c = false) : EndsInInk text :=
  ⟨text.toList.getLast hne, List.getLast?_eq_some_getLast hne, h _ (List.getLast_mem hne)⟩

section Solid
variable {items : List Item} (h : ∀ i ∈ items, i.Printable)
include h

theorem solid_enumTexts (names : Names) : Solid (enumTexts names items) where
  nonempty := by simp [enumTexts]
  ends text htext := by
    rcases List.mem_append.1 htext with htext | htext
    · rcases List.mem_cons.1 htext with rfl | htext
      · exact endsInInk_append _ (by decide)
      · obtain ⟨i, hi, rfl⟩ := List.mem_map.1 htext
        obtain ⟨n, hn⟩ := Int.eq_ofNat_of_zero_le (h i hi).index.1
        have hindex : EndsInInk (toString i.index) := by
          rw [hn]
          exact endsInInk_of_forall (run_repr n).1 fun c hc =>
            letter_not_blank ((allOf_isLetter_repr n).mem hc)
        exact endsInInk_append _ (endsInInk_append _ hindex)
    · rw [List.mem_singleton.1 htext]
      decide

theorem solid_converterTexts (function source target : String) :
    Solid (converterTexts function source target items) where
  nonempty := by simp [converterTexts]
  ends text htext := by
    rcases List.mem_append.1 htext with htext | htext
    · rcases List.mem_cons.1 htext with rfl | htext
      · exact endsInInk_append _ (by decide)
      rcases List.mem_cons.1 htext with rfl | htext
      · decide
      · obtain ⟨i, hi, rfl⟩ := List.mem_map.1 htext
        have hname : AllOf isLetter i.name :=
          List.all_eq_true.2 fun c hc => isLetter_of_isWord ((h i hi).name.2 c hc)
        have hreference : EndsInInk (reference i) := by
          refine endsInInk_of_forall (by simp [reference, member]) fun c hc => ?_
          exact token_not_blank ((allOf_member hname.camelCase).mem hc)
        exact endsInInk_append _ (endsInInk_append _ hreference)
    · simp only [List.mem_cons, List.not_mem_nil, or_false] at htext
      rcases htext with rfl | rfl <;> decide

end Solid

/-- Lines list the items of an enum in some order: as the cases of the enum, and as the arms of
both functions that convert it. -/
structure ListsItems (lines : List String) (names : Names) (items : List Item) : Prop where
  cases : IsExcerpt (enumTexts names items) lines
  wrap : IsExcerpt (converterTexts s!"{names.wrapper}Wrap" names.wire names.path items) lines
  unwrap : IsExcerpt (converterTexts s!"{names.wrapper}Unwrap" names.path names.wire items) lines

/-- Every enum is in the generated code, with its items in order of their indices. -/
theorem listsItems_script {id : Nat} {d : Declaration} {items : List Item} (hid : id ∈ s.listed)
    (hd : s.get? id = some d) (hbody : d.body = .enumeration items)
    (h : ∀ i ∈ items, i.Printable) : ListsItems (script s).lines d.names (byIndex items) := by
  have hscript : wrapperScript s id = enumScript d items := by
    rw [wrapperScript, Schema.collect_of_get? hd, declarationScript, hbody]
  have hsorted : ∀ i ∈ byIndex items, i.Printable := fun i hi => h i (mem_byIndex.1 hi)
  obtain ⟨hcases, hwrap, hunwrap⟩ := shows_enumScript d items
  rw [← hscript] at hcases hwrap hunwrap
  exact {
    cases := isExcerpt_script s hid hcases (solid_enumTexts hsorted _)
    wrap := isExcerpt_script s hid hwrap (solid_converterTexts hsorted _ _ _)
    unwrap := isExcerpt_script s hid hunwrap (solid_converterTexts hsorted _ _ _) }

end Swift
end SwiftWrap
