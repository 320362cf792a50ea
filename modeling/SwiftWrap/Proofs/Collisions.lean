import SwiftWrap.Proofs.Names
import SwiftWrap.Proofs.Token

/-! Declarations that get the same name.

A wrapper's name is the names of its chain run together, so the name does not tell where one
ends and the next begins. Two chains run together into one name if they are the same but for the
case of first letters, or if they fork: a name of the one goes on where a name of the other has
ended, and the names below it make up for the rest (`join_eq_join_iff`). No two chains fork if no
name begins another. `wrappers_collide_iff` says when two wrappers of a text have one name.

Paths and wire names have dots in them that tell more. A path has all beginnings of the chain in
it, so it is the same for chains that differ in the case of first letters only. A wire name is
the chain, but for the last name of some enums. `Reached.references_collide_iff` says so of every
schema that comes about by edits. -/
namespace SwiftWrap
open Text

/-! ### Names run together -/

/-- After a common beginning a name goes on where the other has ended, and what follows the other
makes up for it. -/
def Forks (names others : List String) : Prop :=
  ∃ front name more rest rest', names = front ++ name :: rest ∧
    others = front ++ (name ++ more) :: rest' ∧ more ≠ "" ∧
    String.join rest = more ++ String.join rest'

theorem Forks.cons {names others : List String} (h : Forks names others) (name : String) :
    Forks (name :: names) (name :: others) := by
  obtain ⟨front, x, more, rest, rest', rfl, rfl, hmore, hjoin⟩ := h
  exact ⟨name :: front, x, more, rest, rest', rfl, rfl, hmore, hjoin⟩

/-- Chains that fork have the same name when they are run together. -/
theorem Forks.join_eq {names others : List String} (h : Forks names others) :
    String.join names = String.join others := by
  obtain ⟨front, name, more, rest, rest', rfl, rfl, -, hjoin⟩ := h
  simp only [String.join_append, String.join_cons, hjoin, String.append_assoc]

theorem append_eq_append_cases {a b c d : String} (h : a ++ b = c ++ d) :
    (∃ more, c = a ++ more ∧ b = more ++ d) ∨ ∃ more, a = c ++ more ∧ d = more ++ b := by
  have hchars : a.toList ++ b.toList = c.toList ++ d.toList := by
    rw [← String.toList_append, h, String.toList_append]
  rcases List.append_eq_append_iff.1 hchars with ⟨more, hc, hb⟩ | ⟨more, ha, hd⟩
  · refine .inl ⟨.ofList more, ?_, ?_⟩ <;> rw [← String.toList_inj] <;> simpa
  · refine .inr ⟨.ofList more, ?_, ?_⟩ <;> rw [← String.toList_inj] <;> simpa

/-- **Names that run together into one text** are the same, or they fork. -/
theorem join_eq_join_iff {names others : List String} (h : ∀ name ∈ names, name ≠ "")
    (h' : ∀ name ∈ others, name ≠ "") :
    String.join names = String.join others ↔
      names = others ∨ Forks names others ∨ Forks others names := by
  constructor
  · intro hjoin
    induction names generalizing others with
    | nil =>
      cases others with
      | nil => exact .inl rfl
      | cons other others => simp [h'] at hjoin
    | cons name names ih =>
      obtain ⟨hname, hnames⟩ := List.forall_mem_cons.1 h
      cases others with
      | nil => simp [hname] at hjoin
      | cons other others =>
        rw [String.join_cons, String.join_cons] at hjoin
        by_cases hsame : name = other
        · subst hsame
          have hrest := ih hnames (List.forall_mem_cons.1 h').2
            ((String.append_right_inj _).1 hjoin)
          exact hrest.imp (congrArg _) (Or.imp (·.cons name) (·.cons name))
        · refine .inr ?_
          rcases append_eq_append_cases hjoin with ⟨more, rfl, hrest⟩ | ⟨more, rfl, hrest⟩
          · have hmore : more ≠ "" := by
              rintro rfl
              simp at hsame
            exact .inl ⟨[], name, more, names, others, rfl, rfl, hmore, hrest⟩
          · have hmore : more ≠ "" := by
              rintro rfl
              simp at hsame
            exact .inr ⟨[], other, more, others, names, rfl, rfl, hmore, hrest⟩
  · rintro (rfl | hfork | hfork)
    · rfl
    · exact hfork.join_eq
    · exact hfork.join_eq.symm

/-! ### Wrappers -/

/-- A chain as wrappers have it. -/
def capitals (chain : List String) : List String := chain.map capitalized

/-- The prefix is the same for all, so it decides nothing. -/
theorem Prefixes.wrapperName_eq_iff {p : Prefixes} {chain chain' : List String} :
    p.wrapperName chain = p.wrapperName chain' ↔
      String.join (capitals chain) = String.join (capitals chain') :=
  String.append_right_inj _

namespace Schema

/-- No name begins another, as wrappers have them. -/
def Separable (s : Schema) : Prop := ∀ d ∈ s.declarations, ∀ e ∈ s.declarations,
  (capitalized d.name).toList <+: (capitalized e.name).toList → d.name = e.name

instance (s : Schema) : Decidable s.Separable :=
  inferInstanceAs (Decidable (∀ d ∈ s.declarations, ∀ e ∈ s.declarations, _ → _))

theorem exists_of_mem_nameChain {s : Schema} {id : Nat} (hid : s.Has id) {name : String}
    (h : name ∈ s.nameChain id) : ∃ d ∈ s.declarations, d.name = name := by
  rw [nameChain, List.mem_reverse] at h
  obtain ⟨k, hk, rfl⟩ := List.mem_map.1 h
  have hin : s.Has k := by
    rcases List.mem_cons.1 hk with rfl | hk
    · exact hid
    · exact Nat.lt_trans (lt_of_mem_enclosing hk) hid
  obtain ⟨d, hd⟩ := exists_get? hin
  exact ⟨d, List.mem_of_getElem? hd, (viewAt_of_get? hd "" (·.name)).symm⟩

theorem capitals_ne_empty {s : Schema} (hnames : ∀ d ∈ s.declarations, d.name ≠ "") {id : Nat}
    (hid : s.Has id) : ∀ name ∈ capitals (s.nameChain id), name ≠ "" := by
  intro name hname
  obtain ⟨word, hword, rfl⟩ := List.mem_map.1 hname
  obtain ⟨d, hd, rfl⟩ := exists_of_mem_nameChain hid hword
  exact capitalized_ne_empty (hnames d hd)

namespace Separable
variable {s : Schema} (hs : s.Separable) {i j : Nat} (hi : s.Has i) (hj : s.Has j)
include hs hi hj

/-- What begins a capitalized name of one chain is no other name of a chain. -/
theorem eq_of_begins {name other : String} (hname : name ∈ s.nameChain i)
    (hother : other ∈ s.nameChain j)
    (h : (capitalized name).toList <+: (capitalized other).toList) : name = other := by
  obtain ⟨d, hd, rfl⟩ := exists_of_mem_nameChain hi hname
  obtain ⟨e, he, rfl⟩ := exists_of_mem_nameChain hj hother
  exact hs d hd e he h

theorem not_forks : ¬Forks (capitals (s.nameChain i)) (capitals (s.nameChain j)) := by
  rintro ⟨front, x, more, rest, rest', hnames, hothers, hmore, -⟩
  have hx : x ∈ capitals (s.nameChain i) := by simp [hnames]
  have hx' : x ++ more ∈ capitals (s.nameChain j) := by simp [hothers]
  obtain ⟨name, hname, rfl⟩ := List.mem_map.1 hx
  obtain ⟨other, hother, heq⟩ := List.mem_map.1 hx'
  have hsame : name = other := by
    refine eq_of_begins hs hi hj hname hother ?_
    rw [heq, String.toList_append]
    exact List.prefix_append _ _
  rw [hsame] at heq
  exact hmore (String.append_eq_left_iff.1 heq.symm)

theorem capitals_inj : capitals (s.nameChain i) = capitals (s.nameChain j) ↔
    s.nameChain i = s.nameChain j := by
  refine ⟨fun h => ?_, congrArg capitals⟩
  have hlength : (s.nameChain i).length = (s.nameChain j).length := by
    simpa [capitals] using congrArg List.length h
  refine List.ext_getElem hlength fun k hk hk' => ?_
  have hsame : capitalized (s.nameChain i)[k] = capitalized (s.nameChain j)[k] := by
    simpa [capitals] using List.getElem_of_eq h (by simpa [capitals] using hk)
  exact eq_of_begins hs hi hj (List.getElem_mem hk) (List.getElem_mem hk')
    ⟨[], by rw [List.append_nil, hsame]⟩

end Separable

theorem grounded_of_text {p : Prefixes} {text : String} {s : Schema}
    (h : linkedOfText p text = .ok s) : s.Grounded := by
  obtain ⟨document, hdocument, -, rfl⟩ := exists_document_of_linkedOfText h
  exact (grounded_ofLines (ofLines_eq_ok_iff_document.2 ⟨document, hdocument, rfl⟩)).link p

namespace Linked
variable {s : Schema} {p : Prefixes} (h : s.Linked p)
include h

theorem wrapper_eq {id : Nat} {d : Declaration} (hd : s.get? id = some d) :
    d.names.wrapper = p.wrapperName (s.nameChain id) := by
  rw [h.names id d hd]
  rfl

/-- Wrappers are named the same exactly if their chains run together into one name. -/
theorem wrapper_eq_iff {i j : Nat} {d e : Declaration} (hd : s.get? i = some d)
    (he : s.get? j = some e) : d.names.wrapper = e.names.wrapper ↔
      String.join (capitals (s.nameChain i)) = String.join (capitals (s.nameChain j)) := by
  rw [h.wrapper_eq hd, h.wrapper_eq he, Prefixes.wrapperName_eq_iff]

/-- Under parents whose wrappers have one name, equally named declarations do too, and under
others they do not. -/
theorem wrapper_eq_iff_of_name (hs : s.Grounded) {i j a b : Nat} {d e : Declaration}
    (hd : s.get? i = some d) (he : s.get? j = some e) (ha : d.parent = some a)
    (hb : e.parent = some b) (hname : d.name = e.name) :
    d.names.wrapper = e.names.wrapper ↔ s.wrapperOf a = s.wrapperOf b := by
  have hi : s.parentOf i = some a := parentOf_eq_some_iff.2 ⟨d, hd, ha⟩
  have hj : s.parentOf j = some b := parentOf_eq_some_iff.2 ⟨e, he, hb⟩
  obtain ⟨da, hda⟩ := exists_get? (hs.has_parent hi)
  obtain ⟨eb, heb⟩ := exists_get? (hs.has_parent hj)
  have hname' : s.nameOf i = s.nameOf j := by
    rw [nameOf, viewAt_of_get? hd, nameOf, viewAt_of_get? he, hname]
  rw [wrapperOf, viewAt_of_get? hda, wrapperOf, viewAt_of_get? heb, h.wrapper_eq_iff hda heb,
    h.wrapper_eq_iff hd he, hs.nameChain_eq i, hs.nameChain_eq j, hi, hj, hname']
  simp [capitals, String.append_left_inj]

end Linked

/-- **When two wrappers of a text have one name.** They do exactly if their chains are the same but
for the case of first letters, or fork. If no name begins another, as wrappers have them, different
chains give different names. And equally named declarations under different parents have different
names exactly if their parents have. -/
theorem wrappers_collide_iff {p : Prefixes} {text : String} {s : Schema}
    (h : linkedOfText p text = .ok s) (hnames : ∀ d ∈ s.declarations, d.name ≠ "") {i j : Nat}
    {d e : Declaration} (hd : s.get? i = some d) (he : s.get? j = some e) :
    (d.names.wrapper = e.names.wrapper ↔
      capitals (s.nameChain i) = capitals (s.nameChain j) ∨
      Forks (capitals (s.nameChain i)) (capitals (s.nameChain j)) ∨
      Forks (capitals (s.nameChain j)) (capitals (s.nameChain i))) ∧
    (s.Separable → (d.names.wrapper = e.names.wrapper ↔ s.nameChain i = s.nameChain j)) ∧
    ∀ a b, d.parent = some a → e.parent = some b → d.name = e.name →
      (d.names.wrapper = e.names.wrapper ↔ s.wrapperOf a = s.wrapperOf b) := by
  have hlinked := linked_of_text h
  have hi : s.Has i := lt_of_get? hd
  have hj : s.Has j := lt_of_get? he
  have hexact : d.names.wrapper = e.names.wrapper ↔ _ := (hlinked.wrapper_eq_iff hd he).trans
    (join_eq_join_iff (capitals_ne_empty hnames hi) (capitals_ne_empty hnames hj))
  refine ⟨hexact, fun hs => ?_, fun a b ha hb hname => ?_⟩
  · rw [hexact, hs.capitals_inj hi hj]
    simp only [hs.not_forks hi hj, hs.not_forks hj hi, or_false]
  · exact hlinked.wrapper_eq_iff_of_name (grounded_of_text h) hd he ha hb hname

/-- The schema of some blocks, with its fields linked. -/
def ofRoots (p : Prefixes) (roots : Forest) : Schema :=
  ((⟨none, roots⟩ : Document).toSchema.link p).schema

/-- A message with nothing in it but messages. -/
def plainMessage (name : String) (nested rest : Forest) : Forest := .message name [] nested rest

/-- Equally named messages in messages of different names. -/
theorem wrappers_collide_iff_items :
    let text := "message Envelope \x7b\nmessage item \x7b\n\x7d\n\x7d\n" ++
      "message Content \x7b\nmessage item \x7b\n\x7d\n\x7d\n"
    let item := plainMessage "item" .nil .nil
    let s := ofRoots ⟨"W", ""⟩ (plainMessage "Envelope" item (plainMessage "Content" item .nil))
    linkedOfText ⟨"W", ""⟩ text = .ok s ∧ (∀ d ∈ s.declarations, d.name ≠ "") ∧ s.Separable ∧
    ∃ d e, s.get? 1 = some d ∧ s.get? 3 = some e ∧
      s.nameChain 1 ≠ s.nameChain 3 ∧ d.names.wrapper ≠ e.names.wrapper := by
  intro text item s
  have hlinked : linkedOfText ⟨"W", ""⟩ text = .ok s := by decide +kernel
  have hnames : ∀ d ∈ s.declarations, d.name ≠ "" := by decide +kernel
  have hseparable : s.Separable := by decide +kernel
  have hchains : s.nameChain 1 ≠ s.nameChain 3 := by decide +kernel
  obtain ⟨d, hd⟩ : ∃ d, s.get? 1 = some d := exists_get? (by decide +kernel)
  obtain ⟨e, he⟩ : ∃ e, s.get? 3 = some e := exists_get? (by decide +kernel)
  have hiff := (wrappers_collide_iff hlinked hnames hd he).2.1 hseparable
  exact ⟨hlinked, hnames, hseparable, d, e, hd, he, hchains, fun h => hchains (hiff.1 h)⟩

/-- **One name for two chains.** Equally named messages stand in different messages, with chains
that fork; and two messages differ in the case of a letter, with messages in them that are called
the same. -/
theorem wrappers_collide :
    let item := plainMessage "Item" .nil .nil
    (let text := "message A \x7b\nmessage B \x7b\nmessage Item \x7b\n\x7d\n\x7d\n\x7d\n" ++
      "message AB \x7b\nmessage Item \x7b\n\x7d\n\x7d\n"
    let s := ofRoots ⟨"", ""⟩
      (plainMessage "A" (plainMessage "B" item .nil) (plainMessage "AB" item .nil))
    linkedOfText ⟨"", ""⟩ text = .ok s ∧
    (∀ d ∈ s.declarations, Run isWord d.name.toList) ∧
    s.nameChain 2 = ["A", "B", "Item"] ∧ s.nameChain 4 = ["AB", "Item"] ∧
    s.wrapperOf 2 = "ABItem" ∧ s.wrapperOf 4 = "ABItem") ∧
    (let text := "message a \x7b\nmessage Item \x7b\n\x7d\n\x7d\n" ++
      "message A \x7b\nmessage Item \x7b\n\x7d\n\x7d\n"
    let s := ofRoots ⟨"", ""⟩ (plainMessage "a" item (plainMessage "A" item .nil))
    linkedOfText ⟨"", ""⟩ text = .ok s ∧
    (∀ d ∈ s.declarations, Run isWord d.name.toList) ∧
    s.nameChain 0 = ["a"] ∧ s.nameChain 2 = ["A"] ∧ s.wrapperOf 0 = "A" ∧ s.wrapperOf 2 = "A" ∧
    s.nameChain 1 = ["a", "Item"] ∧ s.nameChain 3 = ["A", "Item"] ∧
    s.wrapperOf 1 = "AItem" ∧ s.wrapperOf 3 = "AItem") := by
  decide +kernel

end Schema

/-! ### Dotted names -/

/-- Names without dots are told apart where dots join them. -/
theorem dotted_inj {names others : List String} (h : ∀ name ∈ names, '.' ∉ name.toList)
    (h' : ∀ name ∈ others, '.' ∉ name.toList) (hne : names ≠ []) (hne' : others ≠ []) :
    dotted names = dotted others ↔ names = others := by
  -- Cutting at the dots gives the names back.
  have hcut {chain : List String} (h : ∀ name ∈ chain, '.' ∉ name.toList) (hne : chain ≠ []) :
      (dotted chain).toList.splitOn '.' = chain.map String.toList := by
    rw [dotted, String.toList_intercalate]
    exact List.splitOn_intercalate '.' (List.forall_mem_map.2 h) (by simpa using hne)
  refine ⟨fun heq => ?_, congrArg dotted⟩
  have hmap := hcut h hne
  rw [heq, hcut h' hne'] at hmap
  exact ((List.map_inj_right fun _ _ => String.toList_inj.1).1 hmap).symm

theorem capitals_concat (chain : List String) (name : String) :
    capitals (chain ++ [name]) = capitals chain ++ [capitalized name] :=
  List.map_append

namespace Prefixes
variable {p : Prefixes} {chain chain' : List String}

/-- The names of the wrappers on a path tell its chain but for the case of first letters. -/
theorem wrapperNames_eq_iff :
    p.wrapperNames chain = p.wrapperNames chain' ↔ capitals chain = capitals chain' := by
  induction chain using List.reverseRecOn generalizing chain' with
  | nil =>
    cases chain' <;> simp [wrapperNames, capitals]
  | append_singleton chain name ih =>
    rcases List.eq_nil_or_concat chain' with rfl | ⟨chain', name', rfl⟩
    · simp [wrapperNames, capitals]
    · rw [List.concat_eq_append, wrapperNames_concat, wrapperNames_concat,
        List.append_singleton_inj, ih, wrapperName_eq_iff, capitals_concat, capitals_concat,
        List.append_singleton_inj]
      refine and_congr_right fun hsame => ?_
      rw [hsame, String.join_append, String.join_append, String.append_right_inj]
      simp

theorem dot_not_mem_wrapperNames (hp : '.' ∉ p.wrapper.toList)
    (h : ∀ name ∈ chain, '.' ∉ (capitalized name).toList) :
    ∀ name ∈ p.wrapperNames chain, '.' ∉ name.toList := by
  intro name hname hdot
  obtain ⟨k, -, rfl⟩ := List.mem_map.1 hname
  rw [wrapperName, String.toList_append, String.toList_join, List.mem_append] at hdot
  refine hdot.elim hp fun hdot => ?_
  obtain ⟨part, hpart, hdot⟩ := List.mem_flatMap.1 hdot
  obtain ⟨word, hword, rfl⟩ := List.mem_map.1 hpart
  exact h word (List.mem_of_mem_take hword) hdot

/-- Paths are the same exactly if their chains are, but for the case of first letters. -/
theorem path_eq_iff {kind kind' : Kind} (hp : '.' ∉ p.wrapper.toList)
    (h : ∀ name ∈ chain, '.' ∉ (capitalized name).toList)
    (h' : ∀ name ∈ chain', '.' ∉ (capitalized name).toList) (hne : chain ≠ [])
    (hne' : chain' ≠ []) : (p.namesOf kind chain).path = (p.namesOf kind' chain').path ↔
      capitals chain = capitals chain' := by
  refine (dotted_inj (dot_not_mem_wrapperNames hp h) (dot_not_mem_wrapperNames hp h') ?_ ?_).trans
    wrapperNames_eq_iff
  · simpa [wrapperNames] using hne
  · simpa [wrapperNames] using hne'

end Prefixes

/-! ### Wire names -/

/-- The last name of a chain as the wire types have it. -/
def wireLast (kind : Kind) (last : String) : String :=
  if kind = .enumeration && last == renamedEnum then last ++ renamedEnumSuffix else last

theorem wireChain_concat (kind : Kind) (outer : List String) (last : String) :
    wireChain kind (outer ++ [last]) = outer ++ [wireLast kind last] := by
  induction outer with
  | nil => rfl
  | cons name outer ih =>
    rw [List.cons_append, List.cons_append, ← ih]
    cases outer <;> rfl

/-- Two chains, each of a declaration of some kind, that give one wire name. -/
inductive SameWire (kind kind' : Kind) : List String → List String → Prop where
  /-- The same chain, unless its last name is replaced for one of the kinds only. -/
  | same {chain : List String}
      (h : chain.getLast? = some "Type" → (kind = .enumeration ↔ kind' = .enumeration)) :
      SameWire kind kind' chain chain
  | first (outer : List String) (h : kind = .enumeration) :
      SameWire kind kind' (outer ++ ["Type"]) (outer ++ ["TypeEnum"])
  | second (outer : List String) (h : kind' = .enumeration) :
      SameWire kind kind' (outer ++ ["TypeEnum"]) (outer ++ ["Type"])

/-- Only `Type` and `TypeEnum` can become one wire name. -/
theorem wireLast_eq_iff {kind kind' : Kind} {last last' : String} :
    wireLast kind last = wireLast kind' last' ↔
      last = last' ∧ (last = "Type" → (kind = .enumeration ↔ kind' = .enumeration)) ∨
      kind = .enumeration ∧ last = "Type" ∧ last' = "TypeEnum" ∨
      kind' = .enumeration ∧ last = "TypeEnum" ∧ last' = "Type" := by
  have hrenamed : wireLast .enumeration "Type" = "TypeEnum" := by decide
  have hkept {kind : Kind} {last : String} (h : ¬(kind = .enumeration ∧ last = "Type")) :
      wireLast kind last = last := if_neg (by simpa [renamedEnum] using h)
  by_cases h : kind = .enumeration ∧ last = "Type"
  · obtain ⟨rfl, rfl⟩ := h
    by_cases h' : kind' = .enumeration ∧ last' = "Type"
    · obtain ⟨rfl, rfl⟩ := h'
      simp
    · rw [hrenamed, hkept h']
      grind
  · by_cases h' : kind' = .enumeration ∧ last' = "Type"
    · obtain ⟨rfl, rfl⟩ := h'
      rw [hrenamed, hkept h]
      grind
    · rw [hkept h, hkept h']
      grind

theorem sameWire_concat_iff {kind kind' : Kind} {outer outer' : List String} {last last' : String} :
    SameWire kind kind' (outer ++ [last]) (outer' ++ [last']) ↔
      outer = outer' ∧ wireLast kind last = wireLast kind' last' := by
  rw [wireLast_eq_iff]
  constructor
  · intro h
    generalize hchain : outer ++ [last] = chain at h
    generalize hchain' : outer' ++ [last'] = chain' at h
    cases h with
    | same h =>
      obtain ⟨rfl, rfl⟩ := List.append_singleton_inj.1 (hchain.trans hchain'.symm)
      exact ⟨rfl, .inl ⟨rfl, fun hlast => h (by rw [← hchain, hlast]; simp)⟩⟩
    | first _ h =>
      obtain ⟨rfl, rfl⟩ := List.append_singleton_inj.1 hchain
      obtain ⟨rfl, rfl⟩ := List.append_singleton_inj.1 hchain'
      exact ⟨rfl, .inr (.inl ⟨h, rfl, rfl⟩)⟩
    | second _ h =>
      obtain ⟨rfl, rfl⟩ := List.append_singleton_inj.1 hchain
      obtain ⟨rfl, rfl⟩ := List.append_singleton_inj.1 hchain'
      exact ⟨rfl, .inr (.inr ⟨h, rfl, rfl⟩)⟩
  · rintro ⟨rfl, ⟨rfl, h⟩ | ⟨h, rfl, rfl⟩ | ⟨h, rfl, rfl⟩⟩
    · exact .same (by simpa using h)
    · exact .first outer h
    · exact .second outer h

namespace Prefixes
variable {p : Prefixes} {kind kind' : Kind} {chain chain' : List String}

theorem wireName_eq_iff_dotted : p.wireName kind chain = p.wireName kind' chain' ↔
    dotted (wireChain kind chain) = dotted (wireChain kind' chain') := by
  unfold wireName
  by_cases hempty : p.wire.isEmpty = true
  · simp only [if_pos hempty]
  · simp only [if_neg hempty]
    exact String.append_right_inj _

theorem dot_not_mem_wireChain (kind : Kind) (h : ∀ name ∈ chain, '.' ∉ name.toList) :
    ∀ name ∈ wireChain kind chain, '.' ∉ name.toList := by
  rcases List.eq_nil_or_concat chain with rfl | ⟨outer, last, rfl⟩
  · simp [wireChain]
  · rw [List.concat_eq_append] at h ⊢
    rw [wireChain_concat]
    rw [List.forall_mem_append, List.forall_mem_singleton] at h ⊢
    refine ⟨h.1, ?_⟩
    have hsuffix : '.' ∉ renamedEnumSuffix.toList := by decide
    rw [wireLast]
    split
    · rw [String.toList_append, List.mem_append]
      exact not_or.2 ⟨h.2, hsuffix⟩
    · exact h.2

/-- **When two chains give one wire name.** -/
theorem wireName_eq_iff (h : ∀ name ∈ chain, '.' ∉ name.toList)
    (h' : ∀ name ∈ chain', '.' ∉ name.toList) (hne : chain ≠ []) (hne' : chain' ≠ []) :
    p.wireName kind chain = p.wireName kind' chain' ↔ SameWire kind kind' chain chain' := by
  have hdots := dot_not_mem_wireChain kind h
  have hdots' := dot_not_mem_wireChain kind' h'
  obtain ⟨outer, last, rfl⟩ := (List.eq_nil_or_concat chain).resolve_left hne
  obtain ⟨outer', last', rfl⟩ := (List.eq_nil_or_concat chain').resolve_left hne'
  rw [List.concat_eq_append, List.concat_eq_append] at *
  rw [wireChain_concat] at hdots hdots'
  rw [wireName_eq_iff_dotted, wireChain_concat, wireChain_concat,
    dotted_inj hdots hdots' (by simp) (by simp), List.append_singleton_inj, sameWire_concat_iff]

end Prefixes

namespace Schema

/-- **When two references to types are the same.** However a schema comes about, and whether linking
comes to its end or not: two paths are the same exactly if the chains are, but for the case of
first letters; and two wire names are the same exactly if the chains are and their last name is
replaced for both or for none, or if they differ in the last name, which is `TypeEnum` in one and
replaced by that in the other. That holds of any two chains without dots in their names. -/
theorem Reached.references_collide_iff {s : Schema} (h : s.Reached) (p : Prefixes) {i j : Nat}
    (hi : i ∈ s.listed) (hj : j ∈ s.listed) :
    (∃ d e names names', s.get? i = some d ∧ s.get? j = some e ∧
      s.namesAfter p i = some names ∧ s.namesAfter p j = some names' ∧
      ('.' ∉ p.wrapper.toList → (∀ name ∈ s.nameChain i, '.' ∉ (capitalized name).toList) →
        (∀ name ∈ s.nameChain j, '.' ∉ (capitalized name).toList) →
        (names.path = names'.path ↔ capitals (s.nameChain i) = capitals (s.nameChain j))) ∧
      ((∀ name ∈ s.nameChain i, '.' ∉ name.toList) → (∀ name ∈ s.nameChain j, '.' ∉ name.toList) →
        (names.wire = names'.wire ↔ SameWire d.kind e.kind (s.nameChain i) (s.nameChain j)))) ∧
    ∀ kind kind' chain chain', chain ≠ [] → chain' ≠ [] → (∀ name ∈ chain, '.' ∉ name.toList) →
      (∀ name ∈ chain', '.' ∉ name.toList) →
      (p.wireName kind chain = p.wireName kind' chain' ↔ SameWire kind kind' chain chain') := by
  have hs := h.grounded
  obtain ⟨d, hd⟩ := exists_get? (hs.staysInside.listed i hi)
  obtain ⟨e, he⟩ := exists_get? (hs.staysInside.listed j hj)
  have hne := s.nameChain_ne_nil i
  have hne' := s.nameChain_ne_nil j
  refine ⟨⟨d, e, _, _, hd, he, hs.namesAfter_listed p hi hd, hs.namesAfter_listed p hj he,
    fun hp hi hj => ?_, fun hi hj => ?_⟩, fun kind kind' chain chain' hne hne' h h' => ?_⟩
  · exact Prefixes.path_eq_iff hp hi hj hne hne'
  · exact Prefixes.wireName_eq_iff hi hj hne hne'
  · exact Prefixes.wireName_eq_iff h h' hne hne'

/-- An enum `Type` beside a message `TypeEnum`, and an enum `Type` in a message that is called like
theirs but for a capital. -/
def twoTypes : Schema :=
  (⟨none, .message "m" [] (.enumeration "Type" [] (.message "TypeEnum" [] .nil .nil))
    (.message "M" [] (.enumeration "Type" [] .nil) .nil)⟩ : Document).toSchema

/-- The enums have one path, and the first of them has one wire name with the message. -/
theorem Reached.references_collide_iff_types :
    twoTypes.Reached ∧ 1 ∈ twoTypes.listed ∧ 2 ∈ twoTypes.listed ∧ 4 ∈ twoTypes.listed ∧
    (∃ names names', twoTypes.namesAfter ⟨"W", "P"⟩ 1 = some names ∧
      twoTypes.namesAfter ⟨"W", "P"⟩ 4 = some names' ∧ names.path = names'.path) ∧
    ∃ names names', twoTypes.namesAfter ⟨"W", "P"⟩ 1 = some names ∧
      twoTypes.namesAfter ⟨"W", "P"⟩ 2 = some names' ∧ names.path ≠ names'.path ∧
      names.wire = names'.wire := by
  have hlines : ofLines [⟨"message m \x7b", 1⟩, ⟨"enum Type \x7b", 2⟩, ⟨"\x7d", 3⟩,
      ⟨"message TypeEnum \x7b", 4⟩, ⟨"\x7d", 5⟩, ⟨"\x7d", 6⟩, ⟨"message M \x7b", 7⟩,
      ⟨"enum Type \x7b", 8⟩, ⟨"\x7d", 9⟩, ⟨"\x7d", 10⟩] = .ok twoTypes := by rfl
  have hreached : twoTypes.Reached := .single (.replace hlines)
  have hfirst : 1 ∈ twoTypes.listed := by decide +kernel
  have hsecond : 2 ∈ twoTypes.listed := by decide +kernel
  have hlast : 4 ∈ twoTypes.listed := by decide +kernel
  have hkinds : (twoTypes.get? 1).map (·.kind) = some .enumeration := by decide +kernel
  obtain ⟨⟨-, -, names, names', -, -, hnames, hnames', hpath, -⟩, -⟩ :=
    Reached.references_collide_iff hreached ⟨"W", "P"⟩ hfirst hlast
  obtain ⟨⟨d, e, names₁, names₂, hd, -, hnames₁, hnames₂, hpath', hwire⟩, -⟩ :=
    Reached.references_collide_iff hreached ⟨"W", "P"⟩ hfirst hsecond
  have hkind : d.kind = .enumeration := by
    rw [hd] at hkinds
    exact Option.some.inj hkinds
  refine ⟨hreached, hfirst, hsecond, hlast, ⟨names, names', hnames, hnames', ?_⟩,
    names₁, names₂, hnames₁, hnames₂, ?_, ?_⟩
  · exact (hpath (by decide) (by decide +kernel) (by decide +kernel)).2 (by decide +kernel)
  · rw [Ne, hpath' (by decide) (by decide +kernel) (by decide +kernel)]
    decide +kernel
  · have hchain : twoTypes.nameChain 1 = ["m"] ++ ["Type"] := by decide +kernel
    have hchain' : twoTypes.nameChain 2 = ["m"] ++ ["TypeEnum"] := by decide +kernel
    refine (hwire (by decide +kernel) (by decide +kernel)).2 ?_
    rw [hchain, hchain']
    exact .first ["m"] hkind

end Schema
end SwiftWrap
