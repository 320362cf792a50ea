import SwiftWrap.Proofs.Token

/-! Names in camel case.

A name is cut at its underscores, its words are put in lower case, and they are joined with
capitals where a word begins. Nothing is left of a name of underscores alone, and of nothing
else (`camelCase_eq_empty_iff`).

The letters of a name may have been written in either case, and a word that begins with a digit
gets no capital, so different names can come out the same. Names in capitals whose words begin
with letters never do (`camelCase_inj`): in such a name a word begins where a capital stands. -/
namespace SwiftWrap.Text

/-! ### Words -/

/-- Pieces and their marks give the text back. -/
theorem splitOn_inj {mark : Char} {cs cs' : List Char}
    (h : List.splitOn mark cs = List.splitOn mark cs') :
    cs = cs' := by
  have hjoined := congrArg [mark].intercalate h
  rwa [List.intercalate_splitOn, List.intercalate_splitOn] at hjoined

/-- All pieces are empty exactly if there is nothing but marks. -/
theorem splitOn_all_nil_iff {mark : Char} {cs : List Char} :
    (∀ piece ∈ List.splitOn mark cs, piece = []) ↔ ∀ c ∈ cs, c = mark := by
  induction cs with
  | nil => simp
  | cons c rest ih =>
    rw [List.splitOn_cons_eq_if_modifyHead, List.forall_mem_cons]
    split
    · next hc => simp [ih, beq_iff_eq.1 hc]
    · next hc =>
      cases hsplit : List.splitOn mark rest with
      | nil => exact absurd hsplit (List.splitOn_ne_nil mark rest)
      | cons piece pieces => simp [beq_eq_false_iff_ne.1 (Bool.eq_false_iff.2 hc)]

/-- The words that follow the first, each with a capital. -/
def laterWords (words : List (List Char)) : List Char :=
  words.flatMap fun word => (capitalized (.ofList (lowerCase word))).toList

theorem toList_camelCase {s : String} {first : List Char} {rest : List (List Char)}
    (h : List.splitOn '_' s.toList = first :: rest) :
    (camelCase s).toList = lowerCase first ++ laterWords rest := by
  simp only [camelCase, h, List.map_cons, String.toList_append, String.toList_ofList,
    String.toList_join, List.map_map, List.flatMap_map, laterWords, Function.comp_def]

/-! ### Nothing left -/

theorem lowerCase_eq_nil_iff {cs : List Char} : lowerCase cs = [] ↔ cs = [] := by
  cases cs with
  | nil => simp [lowerCase, lowerAfter]
  | cons c rest =>
    simp only [lowerCase, lowerAfter, List.append_eq_nil_iff, reduceCtorEq, iff_false, not_and]
    intro hc
    split at hc
    · cases hc
    · exact absurd hc (lowerChar_ne_nil c)

theorem laterWords_eq_nil_iff {words : List (List Char)} :
    laterWords words = [] ↔ ∀ word ∈ words, word = [] := by
  rw [laterWords, List.flatMap_eq_nil_iff]
  refine forall₂_congr fun word _ => ?_
  rw [String.toList_eq_nil_iff]
  constructor
  · intro h
    by_contra hne
    refine capitalized_ne_empty (fun hempty => hne ?_) h
    rwa [String.ofList_eq_empty_iff, lowerCase_eq_nil_iff] at hempty
  · rintro rfl
    rfl

/-- **Nothing is left of a name exactly if it has underscores only.** -/
theorem camelCase_eq_empty_iff {s : String} : camelCase s = "" ↔ ∀ c ∈ s.toList, c = '_' := by
  rw [← splitOn_all_nil_iff, ← String.toList_eq_nil_iff]
  cases hsplit : List.splitOn '_' s.toList with
  | nil => exact absurd hsplit (List.splitOn_ne_nil '_' s.toList)
  | cons first rest =>
    rw [toList_camelCase hsplit, List.append_eq_nil_iff, lowerCase_eq_nil_iff,
      laterWords_eq_nil_iff, List.forall_mem_cons]

/-! ### Names in capitals -/

def capitals : List Char := "ABCDEFGHIJKLMNOPQRSTUVWXYZ".toList

def numerals : List Char := "0123456789".toList

/-- A word in capitals and digits that begins with a capital. -/
def isCapitalWord : List Char → Bool
  | [] => false
  | c :: rest => capitals.contains c && rest.all (capitals ++ numerals).contains

/-- A name whose words are all in capitals. -/
def isCapitalName (s : String) : Bool := (List.splitOn '_' s.toList).all isCapitalWord

/-- Facts about listed characters are evaluated along the list, not for every character. -/
theorem forall_mem_of_all {P : Char → Prop} [DecidablePred P] {cs : List Char}
    (h : (cs.all fun c => decide (P c)) = true) : ∀ c ∈ cs, P c := fun c hc =>
  of_decide_eq_true (List.all_eq_true.1 h c hc)

/-- What lower case makes of capitals and digits. -/
theorem lowered_facts : ∀ c ∈ capitals ++ numerals, c ≠ 'Σ' ∧ lowerChar c = [c.toLower] ∧
    capitals.contains c.toLower = false ∧ c.toLower.toUpper = c :=
  forall_mem_of_all (by decide +kernel)

theorem raised_facts : ∀ c ∈ capitals, upperChar c.toLower = [c] :=
  forall_mem_of_all (by decide +kernel)

/-- Among capitals and numerals, lower case goes letter by letter. -/
theorem lowerCase_of_capitals {cs : List Char} (h : ∀ c ∈ cs, c ∈ capitals ++ numerals) :
    lowerCase cs = cs.map Char.toLower := by
  suffices ∀ before, lowerAfter before cs = cs.map Char.toLower from this []
  induction cs with
  | nil => exact fun _ => rfl
  | cons c rest ih =>
    obtain ⟨hc, hrest⟩ := List.forall_mem_cons.1 h
    obtain ⟨hsigma, hlower, -⟩ := lowered_facts c hc
    intro before
    rw [lowerAfter, if_neg hsigma, hlower, ih hrest]
    rfl

theorem map_toUpper_toLower {cs : List Char} (h : ∀ c ∈ cs, c ∈ capitals ++ numerals) :
    (cs.map Char.toLower).map Char.toUpper = cs := by
  rw [List.map_map]
  exact (List.map_congr_left fun c hc => (lowered_facts c (h c hc)).2.2.2).trans (List.map_id' cs)

/-- A word in lower case ends where the next begins with a capital. -/
theorem lowered_append_inj {cs cs' rest rest' : List Char}
    (h : ∀ c ∈ cs, c ∈ capitals ++ numerals) (h' : ∀ c ∈ cs', c ∈ capitals ++ numerals)
    (hrest : Stops (!capitals.contains ·) rest) (hrest' : Stops (!capitals.contains ·) rest')
    (heq : cs.map Char.toLower ++ rest = cs'.map Char.toLower ++ rest') :
    cs = cs' ∧ rest = rest' := by
  have hlow {cs : List Char} (h : ∀ c ∈ cs, c ∈ capitals ++ numerals) :
      ∀ c ∈ cs.map Char.toLower, (!capitals.contains c) = true := by
    intro c hc
    obtain ⟨x, hx, rfl⟩ := List.mem_map.1 hc
    rw [(lowered_facts x (h x hx)).2.2.1]
    rfl
  have htake := congrArg (List.takeWhile (!capitals.contains ·)) heq
  have hdrop := congrArg (List.dropWhile (!capitals.contains ·)) heq
  rw [takeWhile_run (hlow h) hrest, takeWhile_run (hlow h') hrest'] at htake
  rw [dropWhile_run (hlow h) hrest, dropWhile_run (hlow h') hrest'] at hdrop
  exact ⟨by rw [← map_toUpper_toLower h, htake, map_toUpper_toLower h'], hdrop⟩

theorem exists_of_isCapitalWord {word : List Char} (h : isCapitalWord word = true) :
    ∃ c rest, word = c :: rest ∧ c ∈ capitals ∧ ∀ x ∈ rest, x ∈ capitals ++ numerals := by
  cases word with
  | nil => cases h
  | cons c rest =>
    rw [isCapitalWord, Bool.and_eq_true, List.contains_iff_mem, List.all_eq_true] at h
    exact ⟨c, rest, rfl, h.1, fun x hx => List.contains_iff_mem.1 (h.2 x hx)⟩

theorem mem_of_isCapitalWord {word : List Char} (h : isCapitalWord word = true) :
    ∀ c ∈ word, c ∈ capitals ++ numerals := by
  obtain ⟨c, rest, rfl, hc, hrest⟩ := exists_of_isCapitalWord h
  exact List.forall_mem_cons.2 ⟨List.mem_append_left numerals hc, hrest⟩

theorem laterWords_cons {c : Char} {rest : List Char} (hc : c ∈ capitals)
    (hrest : ∀ x ∈ rest, x ∈ capitals ++ numerals) (words : List (List Char)) :
    laterWords ((c :: rest) :: words) = c :: (rest.map Char.toLower ++ laterWords words) := by
  have hall : ∀ x ∈ c :: rest, x ∈ capitals ++ numerals :=
    List.forall_mem_cons.2 ⟨List.mem_append_left numerals hc, hrest⟩
  rw [laterWords, List.flatMap_cons, lowerCase_of_capitals hall, capitalized,
    String.toList_ofList, List.map_cons]
  simp only [raised_facts c hc, String.toList_ofList]
  rfl

theorem stops_laterWords {words : List (List Char)}
    (h : ∀ word ∈ words, isCapitalWord word = true) :
    Stops (!capitals.contains ·) (laterWords words) := by
  cases words with
  | nil => exact stops_nil _
  | cons word words =>
    obtain ⟨c, rest, rfl, hc, hrest⟩ := exists_of_isCapitalWord (h word List.mem_cons_self)
    rw [laterWords_cons hc hrest, stops_cons, List.contains_iff_mem.2 hc]
    rfl

/-- Words that begin with a capital are told apart where they are run together. -/
theorem laterWords_inj {words words' : List (List Char)}
    (h : ∀ word ∈ words, isCapitalWord word = true)
    (h' : ∀ word ∈ words', isCapitalWord word = true) (heq : laterWords words = laterWords words') :
    words = words' := by
  induction words generalizing words' with
  | nil =>
    rw [eq_comm, show laterWords [] = [] from rfl, laterWords_eq_nil_iff] at heq
    cases words' with
    | nil => rfl
    | cons word words' =>
      rw [heq word List.mem_cons_self] at h'
      cases (List.forall_mem_cons.1 h').1
  | cons word words ih =>
    obtain ⟨hword, hwords⟩ := List.forall_mem_cons.1 h
    cases words' with
    | nil =>
      rw [show laterWords [] = [] from rfl, laterWords_eq_nil_iff] at heq
      rw [heq word List.mem_cons_self] at hword
      cases hword
    | cons word' words' =>
      obtain ⟨hword', hwords'⟩ := List.forall_mem_cons.1 h'
      obtain ⟨c, rest, rfl, hc, hrest⟩ := exists_of_isCapitalWord hword
      obtain ⟨c', rest', rfl, hc', hrest'⟩ := exists_of_isCapitalWord hword'
      rw [laterWords_cons hc hrest, laterWords_cons hc' hrest'] at heq
      obtain ⟨rfl, htail⟩ := List.cons.inj heq
      obtain ⟨rfl, hlater⟩ := lowered_append_inj hrest hrest' (stops_laterWords hwords)
        (stops_laterWords hwords') htail
      rw [ih hwords hwords' hlater]

theorem exists_of_isCapitalName {s : String} (h : isCapitalName s = true) :
    ∃ c ∈ s.toList, c ≠ '_' := by
  by_contra hnone
  have hall : ∀ c ∈ s.toList, c = '_' := by simpa using hnone
  rw [isCapitalName, List.all_eq_true] at h
  cases hwords : List.splitOn '_' s.toList with
  | nil => exact absurd hwords (List.splitOn_ne_nil '_' s.toList)
  | cons first rest =>
    have hfirst : first ∈ List.splitOn '_' s.toList := by simp [hwords]
    have hword := h first hfirst
    rw [splitOn_all_nil_iff.2 hall first hfirst] at hword
    cases hword

/-- **Names in capitals stay apart.** -/
theorem camelCase_inj {s t : String} (hs : isCapitalName s = true) (ht : isCapitalName t = true)
    (h : camelCase s = camelCase t) : s = t := by
  rw [isCapitalName, List.all_eq_true] at hs ht
  apply String.toList_inj.1
  refine splitOn_inj (?_ : List.splitOn '_' _ = List.splitOn '_' _)
  cases hwords : List.splitOn '_' s.toList with
  | nil => exact absurd hwords (List.splitOn_ne_nil '_' s.toList)
  | cons first rest =>
    cases hwords' : List.splitOn '_' t.toList with
    | nil => exact absurd hwords' (List.splitOn_ne_nil '_' t.toList)
    | cons first' rest' =>
      rw [hwords] at hs
      rw [hwords'] at ht
      obtain ⟨hfirst, hrest⟩ := List.forall_mem_cons.1 hs
      obtain ⟨hfirst', hrest'⟩ := List.forall_mem_cons.1 ht
      have heq := congrArg String.toList h
      rw [toList_camelCase hwords, toList_camelCase hwords',
        lowerCase_of_capitals (mem_of_isCapitalWord hfirst),
        lowerCase_of_capitals (mem_of_isCapitalWord hfirst')] at heq
      obtain ⟨rfl, hlater⟩ := lowered_append_inj (mem_of_isCapitalWord hfirst)
        (mem_of_isCapitalWord hfirst') (stops_laterWords hrest) (stops_laterWords hrest') heq
      rw [laterWords_inj hrest hrest' hlater]

end SwiftWrap.Text
