import SwiftWrap.Proofs.CamelCase
import SwiftWrap.Proofs.Placement
import Mathlib.Data.List.Nodup

/-! Enums case by case.

Two functions convert a generated enum from the wire and back, each by a switch with an arm for
every item. `Script.arms` reads the arms from the lines of such a function, and
`Swift.convert` is what they do to an item.

The arms always come one for each item, in order of the indices (`Swift.arms_wrapScript`). But
an item is known to a switch by its case, and cases are not compared when a schema is read: the
conversion is one to one exactly if no two items have the same case and none has an empty one
(`Swift.enum_conversion`). Items in capitals, as they are usually written, are such. -/
namespace SwiftWrap
open Text Grammar

/-! ### Arms -/

/-- An arm of a switch: the case that it matches, and the case that it returns. -/
structure Arm where
  pattern : String
  result : String
deriving DecidableEq

/-- The arm that a line holds. -/
def Code.arm? (text : String) : Option Arm := do
  let rest ← after? "case ".toList text.toList
  let result ← after? ": return ".toList (rest.dropWhile (· ≠ ':'))
  return ⟨.ofList (rest.takeWhile (· ≠ ':')), .ofList result⟩

/-- The arms among the lines that a script adds. -/
def Script.arms (script : Script) : List Arm := script.texts.filterMap Code.arm?

namespace Code

/-- A line that begins with another letter holds no arm. -/
theorem arm?_of_lead {lead : String} (h : lead.toList.head?.any (· ≠ 'c') = true) (rest : String) :
    arm? (lead ++ rest) = none := by
  have hstart : after? "case ".toList (lead ++ rest).toList = none := by
    rw [Option.eq_none_iff_forall_ne_some]
    intro tail htail
    rw [after?_eq_some_iff, String.toList_append] at htail
    cases hlead : lead.toList with
    | nil => simp [hlead] at h
    | cons c cs =>
      rw [hlead] at h htail
      have hc : c ≠ 'c' := by simpa using h
      exact hc (List.cons.inj htail).1
  rw [arm?, hstart]
  rfl

theorem arm?_case {pattern : String} (h : ':' ∉ pattern.toList) (result : String) :
    arm? s!"case {pattern}: return {result}" = some ⟨pattern, result⟩ := by
  have htext : (s!"case {pattern}: return {result}").toList =
      "case ".toList ++ (pattern.toList ++ (": return ".toList ++ result.toList)) := by
    simp [toString, String.toList_append]
  have hrun : ∀ c ∈ pattern.toList, decide (c ≠ ':') = true := fun c hc =>
    decide_eq_true fun heq => h (heq ▸ hc)
  have hstop : Stops (fun c => decide (c ≠ ':')) (": return ".toList ++ result.toList) :=
    stops_cons.2 (by decide)
  rw [arm?, after?_eq_some_iff.2 htext]
  simp only [Option.bind_eq_bind, Option.bind_some, dropWhile_run hrun hstop,
    takeWhile_run hrun hstop, after?_eq_some_iff.2 rfl, String.ofList_toList]
  rfl

end Code

namespace Script

theorem arms_append (first second : Script) :
    (first ++ second).arms = first.arms ++ second.arms := by
  simp only [arms, texts, List.flatMap_append, List.filterMap_append]

theorem arms_cons (step : Sheet.Step) (rest : Script) :
    arms (step :: rest) = step.texts.filterMap Code.arm? ++ arms rest := by
  simp only [arms, texts, List.flatMap_cons, List.filterMap_append]

theorem arms_map_line {items : List α} {f : α → String} {arm : α → Arm}
    (h : ∀ a ∈ items, Code.arm? (f a) = some (arm a)) :
    arms (items.map fun a => .line (f a)) = items.map arm := by
  induction items with
  | nil => rfl
  | cons a rest ih =>
    obtain ⟨ha, hrest⟩ := List.forall_mem_cons.1 h
    rw [List.map_cons, arms_cons, Sheet.Step.texts, List.filterMap_cons_some ha, ih hrest]
    rfl

/-- A line without an arm does not count. -/
theorem arms_cons_line {text : String} (h : Code.arm? text = none) (rest : Script) :
    arms (.line text :: rest) = rest.arms := by
  rw [arms_cons, Sheet.Step.texts, List.filterMap_cons_none h]
  rfl

/-- Braces do not count. -/
theorem arms_braced {head : String} (h : Code.arm? (head ++ " \x7b") = none) (body : Script) :
    (braced head body).arms = body.arms := by
  have hclose : arms [.dedent, .line "\x7d"] = [] := by decide
  have hindent : arms (.indent :: body) = body.arms := arms_cons ..
  rw [braced, arms_append, hclose, List.append_nil, List.cons_append, arms_cons_line h,
    List.cons_append, List.nil_append, hindent]

end Script

/-! ### Converters -/

namespace Swift
open Script

theorem member_inj {a b : String} (ha : AllOf isLetter a) (hb : AllOf isLetter b)
    (h : member a = member b) : a = b := by
  have htick {name : String} (hname : AllOf isLetter name) : '`' ∉ name.toList := fun hmem =>
    absurd (hname.mem hmem) (by decide)
  have hlist := congrArg String.toList h
  simp only [member, String.toList_append, List.append_cancel_left_eq] at hlist
  apply String.toList_inj.1
  split at hlist
  · split at hlist
    · simpa [ticked] using hlist
    · exact absurd (hlist ▸ by simp [ticked] : '`' ∈ b.toList) (htick hb)
  · split at hlist
    · exact absurd (hlist ▸ by simp [ticked] : '`' ∈ a.toList) (htick ha)
    · exact hlist

theorem colon_not_mem_member {name : String} (h : AllOf isLetter name) :
    ':' ∉ (member name).toList := fun hmem =>
  absurd ((allOf_member h).mem hmem) (by decide)

/-- A converter has one arm for each name, in their order. -/
theorem arms_converterScript {names : List String} (h : ∀ name ∈ names, AllOf isLetter name)
    (function source target : String) :
    (converterScript names function source target).arms =
      names.map fun name => ⟨member name, member name⟩ := by
  have hcases : arms (names.map fun name => .line s!"case {member name}: return {member name}") =
      names.map fun name => ⟨member name, member name⟩ :=
    arms_map_line fun name hname => Code.arm?_case (colon_not_mem_member (h name hname)) _
  have hhead : Code.arm? (s!"fileprivate class func {function}(_ value: {source}) -> {target}" ++
      " \x7b") = none := by
    simp only [String.append_assoc]
    exact Code.arm?_of_lead (by decide) _
  have hswitch : Code.arm? "switch value \x7b" = none := by decide
  have hrest : arms [.line "\x7d"] = [] ∧ arms [.blank] = [] := by decide
  rw [converterScript, arms_append, arms_braced hhead, List.cons_append, arms_cons_line hswitch,
    arms_append, hcases, hrest.1, hrest.2, List.append_nil, List.append_nil]

/-- The function that converts an enum from the wire. -/
def wrapScript (d : Declaration) (items : List Item) : Script :=
  converterScript ((cases items).map Prod.fst) s!"{d.names.wrapper}Wrap" d.names.wire d.names.path

/-- The function that converts an enum to the wire. -/
def unwrapScript (d : Declaration) (items : List Item) : Script :=
  converterScript ((cases items).map Prod.fst) s!"{d.names.wrapper}Unwrap" d.names.path d.names.wire

theorem converters_suffix (d : Declaration) (items : List Item) :
    wrapScript d items ++ unwrapScript d items <:+ enumScript d items := by
  simp only [enumScript, ← wrapScript.eq_1, ← unwrapScript.eq_1]
  rw [List.append_assoc, List.cons_append]
  exact (List.suffix_cons ..).trans (List.suffix_append ..)

/-- The case that stands for an item, as a switch refers to it. -/
def reference (i : Item) : String := member (itemCase i.name)

/-- An arm for each item, in order of the indices. -/
def itemArms (items : List Item) : List Arm :=
  (byIndex items).map fun i => ⟨reference i, reference i⟩

theorem mem_byIndex {items : List Item} {i : Item} : i ∈ byIndex items ↔ i ∈ items :=
  (List.mergeSort_perm ..).mem_iff

theorem cases_names (items : List Item) :
    (cases items).map Prod.fst = (byIndex items).map (itemCase ·.name) := by
  rw [cases, List.map_map]
  rfl

section Letters
variable {items : List Item} (h : ∀ i ∈ items, AllOf isLetter i.name)
include h

theorem arms_cases (function source target : String) :
    (converterScript ((cases items).map Prod.fst) function source target).arms =
      itemArms items := by
  have hnames : ∀ name ∈ (cases items).map Prod.fst, AllOf isLetter name := by
    intro name hname
    rw [cases_names] at hname
    obtain ⟨i, hi, rfl⟩ := List.mem_map.1 hname
    exact (h i (mem_byIndex.1 hi)).camelCase
  rw [arms_converterScript hnames, cases_names, List.map_map]
  rfl

theorem arms_wrapScript (d : Declaration) : (wrapScript d items).arms = itemArms items :=
  arms_cases h ..

theorem arms_unwrapScript (d : Declaration) : (unwrapScript d items).arms = itemArms items :=
  arms_cases h ..

end Letters

/-! ### One to one -/

/-- What a switch makes of an item: the first arm for its case decides, and the result is the
first item with the case that the arm returns. -/
def convert (arms : List Arm) (items : List Item) (i : Item) : Option Item := do
  let arm ← arms.find? (·.pattern == reference i)
  (byIndex items).find? (reference · == arm.result)

/-- A switch with exactly one arm for each item. -/
structure IsSwitch (items : List Item) (arms : List Arm) : Prop where
  length : arms.length = items.length
  one : ∀ i ∈ items, ∃ arm, arms.filter (·.pattern == reference i) = [arm]
  apart : (arms.map Arm.pattern).Nodup

/-- Items have cases of their own, and two switches that undo each other. -/
structure OneToOne (items : List Item) (wrap unwrap : List Arm) : Prop where
  named : ∀ c ∈ cases items, c.1 ≠ ""
  apart : ((cases items).map Prod.fst).Nodup
  wrapSwitch : IsSwitch items wrap
  unwrapSwitch : IsSwitch items unwrap
  back : ∀ i ∈ items, (convert wrap items i).bind (convert unwrap items) = some i
  forth : ∀ i ∈ items, (convert unwrap items i).bind (convert wrap items) = some i

/-- Where no two values are the same, one is the only one of its kind. -/
theorem filter_of_nodup_map {f : α → String} {l : List α} (h : (l.map f).Nodup) {a : α}
    (ha : a ∈ l) : l.filter (f · == f a) = [a] := by
  induction l with
  | nil => cases ha
  | cons x rest ih =>
    obtain ⟨hx, hrest⟩ := List.nodup_cons.1 h
    rcases List.mem_cons.1 ha with rfl | ha
    · have hnone : rest.filter (f · == f a) = [] := by
        refine List.filter_eq_nil_iff.2 fun y hy heq => hx ?_
        rw [← beq_iff_eq.1 heq]
        exact List.mem_map_of_mem hy
      rw [List.filter_cons, if_pos (beq_self_eq_true _), hnone]
    · have hne : f x ≠ f a := fun heq => hx (heq ▸ List.mem_map_of_mem ha)
      rw [List.filter_cons, if_neg (by simpa using hne), ih hrest ha]

theorem find?_of_nodup_map {f : α → String} {l : List α} (h : (l.map f).Nodup) {a : α}
    (ha : a ∈ l) : l.find? (f · == f a) = some a := by
  rw [← List.head?_filter, filter_of_nodup_map h ha]
  rfl

section References
variable {items : List Item} (h : ((byIndex items).map reference).Nodup)
include h

theorem isSwitch_itemArms : IsSwitch items (itemArms items) where
  length := by rw [itemArms, List.length_map, byIndex, List.length_mergeSort]
  one i hi := by
    refine ⟨⟨reference i, reference i⟩, ?_⟩
    rw [itemArms, List.filter_map]
    exact congrArg _ (filter_of_nodup_map h (mem_byIndex.2 hi))
  apart := by
    rw [itemArms, List.map_map]
    exact h

theorem convert_itemArms {i : Item} (hi : i ∈ items) :
    convert (itemArms items) items i = some i := by
  have hfind : (itemArms items).find? (·.pattern == reference i) =
      some ⟨reference i, reference i⟩ := by
    rw [itemArms, List.find?_map]
    exact congrArg _ (find?_of_nodup_map h (mem_byIndex.2 hi))
  rw [convert, hfind]
  exact find?_of_nodup_map h (mem_byIndex.2 hi)

end References

theorem nodup_cases_iff {items : List Item} :
    ((cases items).map Prod.fst).Nodup ↔ (items.map (itemCase ·.name)).Nodup := by
  rw [cases_names]
  exact ((List.mergeSort_perm ..).map _).nodup_iff

theorem itemCase_ne_empty_iff {name : String} :
    itemCase name ≠ "" ↔ ∃ c ∈ name.toList, c ≠ '_' := by
  rw [itemCase, ne_eq, camelCase_eq_empty_iff]
  simp only [not_forall, exists_prop]

/-- Cases that differ are referred to differently. -/
theorem nodup_reference {items : List Item} (hletters : ∀ i ∈ items, AllOf isLetter i.name)
    (h : ((cases items).map Prod.fst).Nodup) : ((byIndex items).map reference).Nodup := by
  have hmember : ((byIndex items).map (itemCase ·.name)).map member =
      (byIndex items).map reference := List.map_map
  rw [cases_names] at h
  rw [← hmember]
  refine List.Nodup.map_on (fun a ha b hb heq => ?_) h
  obtain ⟨i, hi, rfl⟩ := List.mem_map.1 ha
  obtain ⟨j, hj, rfl⟩ := List.mem_map.1 hb
  exact member_inj (hletters i (mem_byIndex.1 hi)).camelCase
    (hletters j (mem_byIndex.1 hj)).camelCase heq

/-- **The conversion is one to one exactly if the cases are.** A name of underscores alone has an
empty case. -/
theorem oneToOne_iff {items : List Item} (hletters : ∀ i ∈ items, AllOf isLetter i.name) :
    OneToOne items (itemArms items) (itemArms items) ↔
      (∀ i ∈ items, ∃ c ∈ i.name.toList, c ≠ '_') ∧ (items.map (itemCase ·.name)).Nodup := by
  constructor
  · intro h
    refine ⟨fun i hi => itemCase_ne_empty_iff.1 ?_, nodup_cases_iff.1 h.apart⟩
    exact h.named _ (List.mem_map_of_mem (mem_byIndex.2 hi))
  · intro hx
    obtain ⟨hname, hapart⟩ := hx
    have hcases := nodup_cases_iff.2 hapart
    have hreference := nodup_reference hletters hcases
    have hround : ∀ i ∈ items, (convert (itemArms items) items i).bind
        (convert (itemArms items) items) = some i := by
      intro i hi
      rw [convert_itemArms hreference hi]
      exact convert_itemArms hreference hi
    exact {
      named := fun c hc => by
        obtain ⟨i, hi, rfl⟩ := List.mem_map.1 hc
        exact itemCase_ne_empty_iff.2 (hname i (mem_byIndex.1 hi))
      apart := hcases
      wrapSwitch := isSwitch_itemArms hreference
      unwrapSwitch := isSwitch_itemArms hreference
      back := hround
      forth := hround }

/-- Items in capitals under different names have cases of their own. -/
theorem oneToOne_of_capitals {items : List Item} (hletters : ∀ i ∈ items, AllOf isLetter i.name)
    (hapart : Apart Item.name Item.index items)
    (hcapitals : ∀ i ∈ items, isCapitalName i.name = true) :
    OneToOne items (itemArms items) (itemArms items) := by
  have hnames : (items.map Item.name).Nodup :=
    List.pairwise_map.2 (hapart.imp fun hne => hne.1)
  refine (oneToOne_iff hletters).2 ⟨fun i hi => exists_of_isCapitalName (hcapitals i hi), ?_⟩
  have hmap : items.map (itemCase ·.name) = (items.map Item.name).map itemCase :=
    List.map_map.symm
  rw [hmap]
  refine List.Nodup.map_on (fun a ha b hb heq => ?_) hnames
  obtain ⟨i, hi, rfl⟩ := List.mem_map.1 ha
  obtain ⟨j, hj, rfl⟩ := List.mem_map.1 hb
  exact camelCase_inj (hcapitals i hi) (hcapitals j hj) heq

/-- **How an enum of a schema that is read is converted.** Whatever its names for generated code
are, its script ends with two functions, each with an arm for every item in order of the
indices. The conversion is one to one exactly if every item has a character other than an
underscore and no two items have the same case, and so whenever the items are in capitals. -/
theorem enum_conversion {lines : List Line} {s : Schema} (h : Schema.ofLines lines = .ok s)
    {id : Nat} {d : Declaration} (hd : s.get? id = some d) (names : Names) :
    let e := { d with names := names }
    wrapScript e d.items ++ unwrapScript e d.items <:+ enumScript e d.items ∧
    (wrapScript e d.items).arms = itemArms d.items ∧
    (unwrapScript e d.items).arms = itemArms d.items ∧
    (OneToOne d.items (wrapScript e d.items).arms (unwrapScript e d.items).arms ↔
      (∀ i ∈ d.items, ∃ c ∈ i.name.toList, c ≠ '_') ∧ (d.items.map (itemCase ·.name)).Nodup) ∧
    ((∀ i ∈ d.items, isCapitalName i.name = true) →
      OneToOne d.items (wrapScript e d.items).arms (unwrapScript e d.items).arms) := by
  obtain ⟨document, hdocument, rfl⟩ := Schema.ofLines_eq_ok_iff_document.1 h
  obtain ⟨packages, hfile, -⟩ := Document.ofLines_eq_ok_iff.1 hdocument
  have hspelled := (spelledBy_of_isFile hfile).2 none 0 d (List.mem_of_getElem? hd)
  have hletters : ∀ i ∈ d.items, AllOf isLetter i.name := by
    intro i hi
    obtain ⟨text, -, hitem⟩ := hspelled.items i hi
    cases hitem with
    | intro _ hname _ _ _ => exact AllOf.ofList fun c hc => isLetter_of_isWord (hname.2 c hc)
  intro e
  have hwrap := arms_wrapScript hletters e
  have hunwrap := arms_unwrapScript hletters e
  rw [hwrap, hunwrap]
  exact ⟨converters_suffix e d.items, rfl, rfl, oneToOne_iff hletters,
    oneToOne_of_capitals hletters hspelled.itemsApart⟩

end Swift

/-- The lines of an enum in a message. -/
def enumLines (items : List String) : List Line :=
  [⟨"message M \x7b", 1⟩, ⟨"enum E \x7b", 2⟩] ++ items.map (⟨·, 3⟩) ++ [⟨"\x7d", 4⟩, ⟨"\x7d", 5⟩]

/-- An enum in a message. -/
def Document.enumSample (items : List Item) : Document :=
  ⟨none, .message "M" [] (.enumeration "E" items .nil) .nil⟩

namespace Swift

theorem enum_conversion_capitals :
    Schema.ofLines (enumLines ["DELIVERY_RECEIPT = 2;", "SELF = 1;"]) =
      .ok (Document.enumSample [⟨"DELIVERY_RECEIPT", 2⟩, ⟨"SELF", 1⟩]).toSchema ∧
    ∃ d, (Document.enumSample [⟨"DELIVERY_RECEIPT", 2⟩, ⟨"SELF", 1⟩]).toSchema.get? 1 = some d ∧
      OneToOne d.items (wrapScript d d.items).arms (unwrapScript d d.items).arms := by
  have hlines : Schema.ofLines (enumLines ["DELIVERY_RECEIPT = 2;", "SELF = 1;"]) =
      .ok (Document.enumSample [⟨"DELIVERY_RECEIPT", 2⟩, ⟨"SELF", 1⟩]).toSchema := by rfl
  have hget : (Document.enumSample [⟨"DELIVERY_RECEIPT", 2⟩, ⟨"SELF", 1⟩]).toSchema.get? 1 =
      some _ := rfl
  exact ⟨hlines, _, hget, (enum_conversion hlines hget .none).2.2.2.2 (by decide +kernel)⟩

/-- Names that differ in case only have the same case, and underscores alone have an empty one. -/
theorem enum_conversion_fails :
    (Schema.ofLines (enumLines ["RED = 0;", "red = 1;"]) =
      .ok (Document.enumSample [⟨"RED", 0⟩, ⟨"red", 1⟩]).toSchema ∧
    ∃ d, (Document.enumSample [⟨"RED", 0⟩, ⟨"red", 1⟩]).toSchema.get? 1 = some d ∧
      ¬((cases d.items).map Prod.fst).Nodup ∧
      ¬OneToOne d.items (wrapScript d d.items).arms (unwrapScript d d.items).arms) ∧
    Schema.ofLines (enumLines ["_ = 0;"]) = .ok (Document.enumSample [⟨"_", 0⟩]).toSchema ∧
    ∃ d, (Document.enumSample [⟨"_", 0⟩]).toSchema.get? 1 = some d ∧ ("", 0) ∈ cases d.items := by
  have hsame : ¬((cases [⟨"RED", 0⟩, ⟨"red", 1⟩]).map Prod.fst).Nodup := by
    rw [nodup_cases_iff]
    decide +kernel
  refine ⟨⟨by rfl, _, rfl, hsame, fun h => hsame h.apart⟩, by rfl, _, rfl, ?_⟩
  have hempty : itemCase "_" = "" := by decide +kernel
  exact List.mem_map.2 ⟨⟨"_", 0⟩, mem_byIndex.2 List.mem_cons_self, by rw [hempty]⟩

end Swift
end SwiftWrap
