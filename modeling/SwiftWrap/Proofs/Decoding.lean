import SwiftWrap.Schema.Dump
import SwiftWrap.Proofs.RoundTrip

/-! Reading a dump back.

The text of an interchange value is read from its end. What has been read is a row of values
with a gap wherever a bracket closed; an opening bracket takes the values up to the first gap
and makes one value of them (`Json.opened`). Brackets and quotes say where everything begins
and ends, so commas, colons and blanks add nothing.

`Json.read?_pretty` says that a written value is read as that value in front of what stands
behind it. Of a schema's value every part can be found again, so a dump tells the whole
schema (`Schema.dump_lossless`). -/
namespace SwiftWrap

open Text

/-! ### Strings -/

/-- The number that a hexadecimal digit stands for. -/
def hexValue (c : Char) : Nat := if c.isDigit then c.toNat - '0'.toNat else c.toNat - 'a'.toNat + 10

/-- The character that a letter stands for behind a backslash. -/
def unescaped? (c : Char) : Option Char :=
  [('"', '"'), ('\\', '\\'), ('b', '\x08'), ('t', '\t'), ('n', '\n'), ('f', '\x0c'),
    ('r', '\r')].lookup c

/-- A text that has been read, with one more character in front. -/
def ahead (c : Char) (read : Option (List Char × List Char)) : Option (List Char × List Char) :=
  read.map fun (cs, after) => (c :: cs, after)

/-- The text up to the closing quote, and what stands behind it. -/
def unquoted? : List Char → Option (List Char × List Char)
  | [] => none
  | '"' :: rest => some ([], rest)
  | '\\' :: 'u' :: a :: b :: c :: d :: rest =>
    ahead (.ofNat ([a, b, c, d].foldl (fun n digit => 16 * n + hexValue digit) 0)) (unquoted? rest)
  | '\\' :: c :: rest => (unescaped? c).bind (ahead · (unquoted? rest))
  | c :: rest => ahead c (unquoted? rest)

theorem ahead_eq_some {c : Char} {read : Option (List Char × List Char)} {inner after : List Char}
    (h : ahead c read = some (inner, after)) : ∃ cs, read = some (cs, after) := by
  obtain ⟨⟨cs, _⟩, hread, heq⟩ := Option.map_eq_some_iff.1 h
  cases heq
  exact ⟨cs, hread⟩

/-- Reading a string uses up its quote at least. -/
theorem length_of_unquoted? {cs inner after : List Char} (h : unquoted? cs = some (inner, after)) :
    after.length < cs.length := by
  fun_induction unquoted? cs generalizing inner with
  | case1 => cases h
  | case2 rest =>
    cases h
    exact Nat.lt_succ_self _
  | case3 a b c d rest ih =>
    obtain ⟨_, hrest⟩ := ahead_eq_some h
    have := ih hrest
    simp only [List.length_cons]
    omega
  | case4 c rest _ ih =>
    obtain ⟨_, -, h⟩ := Option.bind_eq_some_iff.1 h
    obtain ⟨_, hrest⟩ := ahead_eq_some h
    have := ih hrest
    simp only [List.length_cons]
    omega
  | case5 c rest _ _ _ ih =>
    obtain ⟨_, hrest⟩ := ahead_eq_some h
    exact Nat.lt_succ_of_lt (ih hrest)

/-- A character that is not escaped stands for itself. -/
theorem unquoted?_plain {c : Char} (hquote : c ≠ '"') (hslash : c ≠ '\\') (rest : List Char) :
    unquoted? (c :: rest) = ahead c (unquoted? rest) := by
  rw [unquoted?] <;> simp [hquote, hslash]

theorem hexValue_digitChar : ∀ n < 16, hexValue (Nat.digitChar n) = n := by decide

theorem hexDigits_low : ∀ n < 16, hexDigits n = [Nat.digitChar n] := by decide

theorem hexDigits_high : ∀ n < 16, hexDigits (16 + n) = ['1', Nat.digitChar n] := by decide

/-- A control character that has no letter of its own. -/
theorem unquoted?_code {c : Char} (high low : Nat) (hhigh : high < 16) (hlow : low < 16)
    (hc : c.toNat = 16 * high + low) (rest : List Char) :
    unquoted? ('\\' :: 'u' :: '0' :: '0' :: Nat.digitChar high :: Nat.digitChar low :: rest) =
      ahead c (unquoted? rest) := by
  have hzero : hexValue '0' = 0 := by decide
  have hcode : Char.ofNat (['0', '0', Nat.digitChar high, Nat.digitChar low].foldl
      (fun n digit => 16 * n + hexValue digit) 0) = c := by
    simp only [List.foldl_cons, List.foldl_nil, hzero, hexValue_digitChar _ hhigh,
      hexValue_digitChar _ hlow, Nat.mul_zero, Nat.zero_add, Nat.add_zero, ← hc, Char.ofNat_toNat]
  rw [unquoted?, hcode]

/-- A character is read as it was meant. -/
theorem unquoted?_escapeChar (c : Char) (rest : List Char) :
    unquoted? (escapeChar c ++ rest) = ahead c (unquoted? rest) := by
  unfold escapeChar
  -- Seven characters have a letter of their own.
  iterate 7
    split
    · next h => rw [h]; rfl
  split
  · next hlow =>
    rw [hexDigits_low _ hlow]
    exact unquoted?_code 0 c.toNat (by decide) hlow (by omega) rest
  split
  · next hlow hhigh =>
    obtain ⟨n, hn⟩ : ∃ n, c.toNat = 16 + n := ⟨c.toNat - 16, by omega⟩
    rw [hn, hexDigits_high n (by omega)]
    exact unquoted?_code 1 n (by decide) (by omega) hn rest
  · next hquote hslash _ _ _ _ _ _ _ => exact unquoted?_plain hquote hslash rest

/-- **Text that is escaped and quoted is read back as it was**, and reading ends at the quote.
-/
theorem unquoted?_escaped (cs rest : List Char) :
    unquoted? (cs.flatMap escapeChar ++ '"' :: rest) = some (cs, rest) := by
  induction cs with
  | nil => rfl
  | cons c cs ih =>
    rw [List.flatMap_cons, List.append_assoc, unquoted?_escapeChar, ih]
    rfl

/-! ### Words -/

/-- Whether a character may stand in a word, such as `null` or a number. -/
def isBare (c : Char) : Bool := c.isAlphanum || c == '-'

/-- The number that decimal digits stand for. -/
def natural? (digits : List Char) : Option Nat :=
  if digits ≠ [] ∧ digits.all Char.isDigit then some (Nat.ofDigitChars 10 digits 0) else none

namespace Json

/-- The value that a word stands for. -/
def ofWord? (word : List Char) : Option Json :=
  match word with
  | '-' :: digits => (natural? digits).map fun n : Nat => number (-n)
  | _ =>
    if word = "null".toList then some null
    else if word = "true".toList then some (bool true)
    else if word = "false".toList then some (bool false)
    else (natural? word).map fun n : Nat => number n

/-! ### Brackets -/

/-- The values up to the first gap, and the row behind it. -/
def closed : List (Option Json) → List Json × List (Option Json)
  | [] => ([], [])
  | none :: row => ([], row)
  | some value :: row => (value :: (closed row).1, (closed row).2)

/-- Keys with the values behind them. -/
def paired : List Json → List (String × Json)
  | string key :: value :: rest => (key, value) :: paired rest
  | _ => []

/-- A row behind a bracket or another mark. -/
def opened (c : Char) (row : List (Option Json)) : Option (List (Option Json)) :=
  if c = ']' ∨ c = '\x7d' then some (none :: row)
  else if c = '[' then some (some (array (closed row).1) :: (closed row).2)
  else if c = '\x7b' then some (some (object (paired (closed row).1)) :: (closed row).2)
  else if c = ',' ∨ c = ':' then some row
  else none

/-- The row of values in a text. -/
def read? : List Char → Option (List (Option Json))
  | [] => some []
  | c :: rest =>
    if c = ' ' ∨ c = '\n' then read? rest
    else if c = '"' then
      match _h : unquoted? rest with
      | some (inner, after) => (read? after).map (some (string (.ofList inner)) :: ·)
      | none => none
    else if isBare c then
      (ofWord? (c :: rest.takeWhile isBare)).bind fun value =>
        (read? (rest.dropWhile isBare)).map (some value :: ·)
    else (read? rest).bind (opened c)
termination_by cs => cs.length
decreasing_by
  · simp
  · have := length_of_unquoted? _h
    simp only [List.length_cons]
    omega
  · have := (List.dropWhile_sublist isBare (l := rest)).length_le
    simp only [List.length_cons]
    omega
  · simp

/-- The value that a text holds. -/
def ofText? (text : String) : Option Json :=
  match read? text.toList with
  | some [some value] => some value
  | _ => none

/-! ### Reading what is written -/

theorem read?_blank {c : Char} (h : c = ' ' ∨ c = '\n') (rest : List Char) :
    read? (c :: rest) = read? rest := by
  rw [read?, if_pos h]

theorem read?_mark {c : Char} (h : c ∈ "[]\x7b\x7d,:".toList) (rest : List Char) :
    read? (c :: rest) = (read? rest).bind (opened c) := by
  have hmarks : "[]\x7b\x7d,:".toList.all fun c =>
      ¬(c = ' ' ∨ c = '\n') ∧ c ≠ '"' ∧ ¬isBare c := by
    decide
  obtain ⟨hblank, hquote, hbare⟩ := of_decide_eq_true (List.all_eq_true.1 hmarks c h)
  rw [read?, if_neg hblank, if_neg hquote, if_neg hbare]

/-- Line breaks and indentation are passed over. -/
theorem read?_lineStart (depth : Nat) (rest : List Char) :
    read? ((lineStart depth).toList ++ rest) = read? rest := by
  have hspaces (n : Nat) : read? (List.replicate n ' ' ++ rest) = read? rest := by
    induction n with
    | zero => rfl
    | succ n ih => rw [List.replicate_succ, List.cons_append, read?_blank (.inl rfl), ih]
  rw [lineStart, String.toList_ofList, List.cons_append, read?_blank (.inr rfl), hspaces]

/-- A quoted text is read as one string. -/
theorem read?_quoted (s : String) (rest : List Char) :
    read? ((quoted s).toList ++ rest) = (read? rest).map (some (string s) :: ·) := by
  have hinner := unquoted?_escaped s.toList rest
  rw [quoted, String.toList_ofList, List.cons_append, List.cons_append, List.append_assoc,
    List.singleton_append, read?, if_neg (by decide), if_pos rfl]
  split
  · next inner after h =>
    rw [hinner] at h
    cases h
    rw [String.ofList_toList]
  · next h =>
    rw [hinner] at h
    cases h

/-- A word is read up to where it ends. -/
theorem read?_word {word rest : List Char} {value : Json} (hword : Run isBare word)
    (hvalue : ofWord? word = some value) (hrest : Stops isBare rest) :
    read? (word ++ rest) = (read? rest).map (some value :: ·) := by
  obtain ⟨hne, hall⟩ := hword
  cases word with
  | nil => exact absurd rfl hne
  | cons c word =>
    obtain ⟨hc, hword⟩ := List.forall_mem_cons.1 hall
    have hblank : ¬(c = ' ' ∨ c = '\n') := by
      rintro (rfl | rfl) <;> cases hc
    have hquote : c ≠ '"' := by
      rintro rfl
      cases hc
    rw [List.cons_append, read?, if_neg hblank, if_neg hquote, if_pos hc,
      takeWhile_run hword hrest, dropWhile_run hword hrest, hvalue]
    rfl

/-- The digits of a number are read back. -/
theorem natural?_repr (n : Nat) : natural? n.repr.toList = some n := by
  obtain ⟨hne, hdigits⟩ := run_repr n
  rw [natural?, if_pos ⟨hne, List.all_eq_true.2 hdigits⟩, Nat.toList_repr,
    Nat.ofDigitChars_ten_toDigits]

theorem ofWord?_digits {word : List Char} (h : Run Char.isDigit word) :
    ofWord? word = (natural? word).map fun n : Nat => number n := by
  obtain ⟨hne, hall⟩ := h
  cases word with
  | nil => exact absurd rfl hne
  | cons c word =>
    have hc : c.isDigit = true := hall c List.mem_cons_self
    have hhead {d : Char} (hd : d.isDigit = false) (tail : List Char) : c :: word ≠ d :: tail := by
      intro heq
      rw [(List.cons.inj heq).1, hd] at hc
      cases hc
    unfold ofWord?
    split
    · next digits heq => exact absurd heq (hhead (by decide) digits)
    · have hnull : c :: word ≠ "null".toList := hhead (d := 'n') (by decide) _
      have htrue : c :: word ≠ "true".toList := hhead (d := 't') (by decide) _
      have hfalse : c :: word ≠ "false".toList := hhead (d := 'f') (by decide) _
      rw [if_neg hnull, if_neg htrue, if_neg hfalse]

theorem toList_negative (m : Nat) :
    (toString (Int.negSucc m)).toList = '-' :: (m + 1).repr.toList := by
  show ("-" ++ (m + 1).repr).toList = _
  rw [String.toList_append]
  rfl

theorem run_number (n : Int) : Run isBare (toString n).toList := by
  have hbare {c : Char} (hc : c.isDigit = true) : isBare c = true := by
    simp [isBare, Char.isAlphanum, hc]
  have hdigits (m : Nat) : ∀ c ∈ m.repr.toList, isBare c = true := fun c hc =>
    hbare ((run_repr m).2 c hc)
  cases n with
  | ofNat m => exact ⟨(run_repr m).1, hdigits m⟩
  | negSucc m =>
    rw [toList_negative]
    exact ⟨List.cons_ne_nil _ _, List.forall_mem_cons.2 ⟨rfl, hdigits (m + 1)⟩⟩

/-- So is a number with its sign. -/
theorem ofWord?_number (n : Int) : ofWord? (toString n).toList = some (number n) := by
  cases n with
  | ofNat m =>
    show ofWord? m.repr.toList = _
    rw [ofWord?_digits (run_repr m), natural?_repr]
    rfl
  | negSucc m =>
    rw [toList_negative, ofWord?, natural?_repr]
    rfl

/-! ### Values -/

/-- A closing bracket takes what stands since the opening one. -/
@[simp] theorem closed_append (values : List Json) (row : List (Option Json)) :
    closed (values.map some ++ none :: row) = (values, row) := by
  induction values with
  | nil => rfl
  | cons value values ih => rw [List.map_cons, List.cons_append, closed, ih]

/-- Keys and values one after another. -/
def unpaired (members : List (String × Json)) : List Json :=
  members.flatMap fun (key, value) => [string key, value]

/-- Members that are laid out in a row are paired again. -/
@[simp] theorem paired_unpaired (members : List (String × Json)) :
    paired (unpaired members) = members := by
  induction members with
  | nil => rfl
  | cons member members ih =>
    obtain ⟨key, value⟩ := member
    show paired (string key :: value :: unpaired members) = _
    rw [paired, ih]

theorem stops_lineStart (depth : Nat) (rest : List Char) :
    Stops isBare ((lineStart depth).toList ++ rest) := by
  rw [lineStart, String.toList_ofList]
  exact stops_cons.2 (by decide)

theorem stops_prettyElements (depth : Nat) (elements : List Json) (rest : List Char) :
    Stops isBare ((prettyElements depth elements).toList ++ rest) := by
  cases elements with
  | nil =>
    rw [prettyElements, String.toList_append, List.append_assoc]
    exact stops_lineStart depth _
  | cons value elements =>
    simp only [prettyElements, String.toList_append, List.append_assoc]
    exact stops_cons.2 (by decide)

theorem stops_prettyMembers (depth : Nat) (members : List (String × Json)) (rest : List Char) :
    Stops isBare ((prettyMembers depth members).toList ++ rest) := by
  cases members with
  | nil =>
    rw [prettyMembers, String.toList_append, List.append_assoc]
    exact stops_lineStart depth _
  | cons member members =>
    obtain ⟨key, value⟩ := member
    simp only [prettyMembers, String.toList_append, List.append_assoc]
    exact stops_cons.2 (by decide)

/-- A key and its value are read as two values. -/
theorem read?_member {depth : Nat} {value : Json} {tail : List Char} (key : String)
    (h : read? ((value.pretty depth).toList ++ tail) = (read? tail).map (some value :: ·)) :
    read? ((lineStart depth).toList ++ ((quoted key).toList ++ (':' :: ' ' ::
      ((value.pretty depth).toList ++ tail)))) =
      (read? tail).map fun row => some (string key) :: some value :: row := by
  rw [read?_lineStart, read?_quoted, read?_mark (by decide), read?_blank (.inl rfl), h]
  cases read? tail <;> rfl

mutual

/-- A value is read in front of what stands behind it. -/
theorem read?_pretty (depth : Nat) (value : Json) {rest : List Char} (hrest : Stops isBare rest) :
    read? ((value.pretty depth).toList ++ rest) = (read? rest).map (some value :: ·) := by
  match value with
  | null =>
    rw [pretty]
    exact read?_word (by decide) rfl hrest
  | bool true =>
    rw [pretty]
    exact read?_word (by decide) rfl hrest
  | bool false =>
    rw [pretty]
    exact read?_word (by decide) rfl hrest
  | number n =>
    rw [pretty]
    exact read?_word (run_number n) (ofWord?_number n) hrest
  | string s =>
    rw [pretty]
    exact read?_quoted s rest
  | array [] =>
    have hlist : (pretty depth (array [])).toList ++ rest = '[' :: ']' :: rest := by
      rw [pretty]
      rfl
    rw [hlist, read?_mark (by decide), read?_mark (by decide)]
    cases read? rest <;> rfl
  | array (x :: xs) =>
    have hx := read?_pretty (depth + 1) x (stops_prettyElements depth xs rest)
    have hxs := read?_prettyElements depth xs rest
    have hlist : (pretty depth (array (x :: xs))).toList ++ rest =
        '[' :: ((lineStart (depth + 1)).toList ++ ((x.pretty (depth + 1)).toList ++
          ((prettyElements depth xs).toList ++ rest))) := by
      simp only [pretty, String.toList_append, List.append_assoc]
      rfl
    rw [hlist, read?_mark (by decide), read?_lineStart, hx, hxs]
    cases read? rest with
    | none => rfl
    | some row =>
      show opened '[' (some x :: (xs.map some ++ none :: row)) = _
      rw [← List.cons_append, ← List.map_cons, opened, closed_append]
      rfl
  | object [] =>
    have hlist : (pretty depth (object [])).toList ++ rest = '\x7b' :: '\x7d' :: rest := by
      rw [pretty]
      rfl
    rw [hlist, read?_mark (by decide), read?_mark (by decide)]
    cases read? rest <;> rfl
  | object ((key, x) :: xs) =>
    have hx := read?_pretty (depth + 1) x (stops_prettyMembers depth xs rest)
    have hxs := read?_prettyMembers depth xs rest
    have hlist : (pretty depth (object ((key, x) :: xs))).toList ++ rest =
        '\x7b' :: ((lineStart (depth + 1)).toList ++ ((quoted key).toList ++ (':' :: ' ' ::
          ((x.pretty (depth + 1)).toList ++ ((prettyMembers depth xs).toList ++ rest))))) := by
      simp only [pretty, String.toList_append, List.append_assoc]
      rfl
    rw [hlist, read?_mark (by decide), read?_member key hx, hxs]
    cases read? rest with
    | none => rfl
    | some row =>
      show opened '\x7b' ((unpaired ((key, x) :: xs)).map some ++ none :: row) = _
      rw [opened, closed_append, paired_unpaired]
      rfl

/-- The rest of an array is read up to the bracket that closes it. -/
theorem read?_prettyElements (depth : Nat) (elements : List Json) (rest : List Char) :
    read? ((prettyElements depth elements).toList ++ rest) =
      (read? rest).map fun row => elements.map some ++ none :: row := by
  match elements with
  | [] =>
    rw [prettyElements, String.toList_append, List.append_assoc, read?_lineStart]
    show read? (']' :: rest) = _
    rw [read?_mark (by decide)]
    cases read? rest <;> rfl
  | x :: xs =>
    have hx := read?_pretty (depth + 1) x (stops_prettyElements depth xs rest)
    have hxs := read?_prettyElements depth xs rest
    have hlist : (prettyElements depth (x :: xs)).toList ++ rest =
        ',' :: ((lineStart (depth + 1)).toList ++ ((x.pretty (depth + 1)).toList ++
          ((prettyElements depth xs).toList ++ rest))) := by
      simp only [prettyElements, String.toList_append, List.append_assoc]
      rfl
    rw [hlist, read?_mark (by decide), read?_lineStart, hx, hxs]
    cases read? rest <;> rfl

/-- The rest of an object is read up to the brace that closes it. -/
theorem read?_prettyMembers (depth : Nat) (members : List (String × Json)) (rest : List Char) :
    read? ((prettyMembers depth members).toList ++ rest) =
      (read? rest).map fun row => (unpaired members).map some ++ none :: row := by
  match members with
  | [] =>
    rw [prettyMembers, String.toList_append, List.append_assoc, read?_lineStart]
    show read? ('\x7d' :: rest) = _
    rw [read?_mark (by decide)]
    cases read? rest <;> rfl
  | (key, x) :: xs =>
    have hx := read?_pretty (depth + 1) x (stops_prettyMembers depth xs rest)
    have hxs := read?_prettyMembers depth xs rest
    have hlist : (prettyMembers depth ((key, x) :: xs)).toList ++ rest =
        ',' :: ((lineStart (depth + 1)).toList ++ ((quoted key).toList ++ (':' :: ' ' ::
          ((x.pretty (depth + 1)).toList ++ ((prettyMembers depth xs).toList ++ rest))))) := by
      simp only [prettyMembers, String.toList_append, List.append_assoc]
      rfl
    rw [hlist, read?_mark (by decide), read?_member key hx, hxs]
    cases read? rest <;> rfl

end

/-- **A value is read back from its text.** -/
theorem ofText?_text (value : Json) : ofText? value.text = some value := by
  have h := read?_pretty 0 value (stops_nil isBare)
  rw [List.append_nil] at h
  rw [ofText?, text, h, read?]
  rfl

/-! ### Parts of a value -/

/-- The value under a key. -/
def member? (key : String) : Json → Option Json
  | object members => members.lookup key
  | _ => none

@[simp] theorem member?_object_cons (key name : String) (value : Json)
    (members : List (String × Json)) :
    (object ((name, value) :: members)).member? key =
      if key = name then some value else (object members).member? key := by
  rw [member?, List.lookup_cons]
  split <;> simp_all [member?]

def asString? : Json → Option String
  | string s => some s
  | _ => none

def asBool? : Json → Option Bool
  | bool b => some b
  | _ => none

def asInt? : Json → Option Int
  | number n => some n
  | _ => none

def asNat? (value : Json) : Option Nat := value.asInt?.bind Int.toNat?

/-- The elements of an array, each decoded. -/
def asList? (decode : Json → Option α) : Json → Option (List α)
  | array elements => elements.mapM decode
  | _ => none

/-- A value that may be absent. -/
def asOption? (decode : Json → Option α) : Json → Option (Option α)
  | null => some none
  | value => (decode value).map some

@[simp] theorem asString?_string (s : String) : (string s).asString? = some s := rfl

theorem asNat?_id (n : Nat) : (Json.id n).asNat? = some n := rfl

/-- A list is read back if each element is. -/
theorem asList?_map {encode : α → Json} {decode : Json → Option α}
    (h : ∀ a, decode (encode a) = some a) (list : List α) :
    asList? decode (array (list.map encode)) = some list := by
  show (list.map encode).mapM decode = some list
  induction list with
  | nil => rfl
  | cons a list ih => simp [h, ih]

end Json

/-! ### Schemas -/

/-- The cardinality with a name. -/
def Cardinality.ofLabel? (label : String) : Option Cardinality := all.find? (·.label == label)

/-- The scalar with a name. -/
def Scalar.ofLabel? (label : String) : Option Scalar := all.find? (·.label == label)

theorem Cardinality.ofLabel?_label (c : Cardinality) : ofLabel? c.label = some c := by
  cases c <;> decide

theorem Scalar.ofLabel?_label (scalar : Scalar) : ofLabel? scalar.label = some scalar := by
  cases scalar <;> decide

open Json

def TypeRef.ofJson? : Json → Option TypeRef
  | .string "Unresolved" => some unresolved
  | .object [("Primitive", label)] => (label.asString?.bind Scalar.ofLabel?).map scalar
  | .object [("Enum", target)] => target.asNat?.map enumeration
  | .object [("Message", target)] => target.asNat?.map message
  | _ => none

/-- Types are told apart by the names of their only member. -/
theorem TypeRef.ofJson?_toJson (type : TypeRef) : ofJson? type.toJson = some type := by
  cases type with
  | scalar type =>
    show (Scalar.ofLabel? type.label).map scalar = _
    rw [Scalar.ofLabel?_label]
    rfl
  | enumeration target => rfl
  | message target => rfl
  | unresolved => rfl

def Field.ofJson? (value : Json) : Option Field := do
  return ⟨← (← value.member? "name").asString?, ← (← value.member? "index").asNat?,
    ← asOption? (·.asString?.bind Cardinality.ofLabel?) (← value.member? "presence"),
    ← (← value.member? "type_name").asString?, ← asOption? asBool? (← value.member? "default"),
    ← TypeRef.ofJson? (← value.member? "resolved")⟩

/-- A field is read back with everything it holds. -/
theorem Field.ofJson?_toJson (f : Field) : ofJson? f.toJson = some f := by
  obtain ⟨name, index, cardinality, typeName, default, type⟩ := f
  have hindex : (Json.number index).asNat? = some index := rfl
  have hcardinality : asOption? (·.asString?.bind Cardinality.ofLabel?)
      (.ofOption (.string ·.label) cardinality) = some cardinality := by
    cases cardinality with
    | none => rfl
    | some c =>
      show (Cardinality.ofLabel? c.label).map some = _
      rw [Cardinality.ofLabel?_label]
      rfl
  have hdefault : asOption? asBool? (.ofOption .bool default) = some default := by
    cases default <;> rfl
  simp [ofJson?, toJson, hindex, hcardinality, hdefault, TypeRef.ofJson?_toJson]

def Item.ofJson? (value : Json) : Option Item := do
  return ⟨← (← value.member? "name").asString?, ← (← value.member? "index").asInt?⟩

theorem Item.ofJson?_toJson (i : Item) : ofJson? i.toJson = some i := rfl

def Body.ofJson? : Json → Option Body
  | .object [("Message", body)] => do
    return message (← asList? asNat? (← body.member? "children"))
      (← asList? Field.ofJson? (← body.member? "fields"))
  | .object [("Enum", body)] => do
    return enumeration (← asList? Item.ofJson? (← body.member? "items"))
  | _ => none

theorem Body.ofJson?_toJson (body : Body) : ofJson? body.toJson = some body := by
  cases body with
  | message children fields =>
    have hchildren := asList?_map asNat?_id children
    have hfields := asList?_map Field.ofJson?_toJson fields
    simp [ofJson?, toJson, hchildren, hfields]
  | enumeration items =>
    have hitems := asList?_map Item.ofJson?_toJson items
    simp [ofJson?, toJson, hitems]

def Declaration.ofJson? (value : Json) : Option Declaration := do
  return ⟨← (← value.member? "name").asString?, ← asOption? asNat? (← value.member? "parent"),
    ← Body.ofJson? (← value.member? "body"), ← (← value.member? "output_name").asString?,
    ← (← value.member? "swift_path").asString?, ← (← value.member? "wire_name").asString?⟩

/-- So is a declaration, with its names and links. -/
theorem Declaration.ofJson?_toJson (d : Declaration) : ofJson? d.toJson = some d := by
  obtain ⟨name, parent, body, names⟩ := d
  have hparent : asOption? asNat? (.ofOption .id parent) = some parent := by cases parent <;> rfl
  simp [ofJson?, toJson, hparent, Body.ofJson?_toJson]

def Schema.ofJson? (value : Json) : Option Schema := do
  return ⟨← asOption? asString? (← value.member? "package"),
    ← asList? asNat? (← value.member? "roots"),
    ← asList? Declaration.ofJson? (← value.member? "decls")⟩

/-- And so is a schema. -/
theorem Schema.ofJson?_toJson (s : Schema) : ofJson? s.toJson = some s := by
  obtain ⟨package, roots, declarations⟩ := s
  have hpackage : asOption? asString? (.ofOption .string package) = some package := by
    cases package <;> rfl
  have hroots := asList?_map asNat?_id roots
  have hdeclarations := asList?_map Declaration.ofJson?_toJson declarations
  simp [ofJson?, toJson, hpackage, hroots, hdeclarations]

/-- The schema that a dump tells. -/
def Schema.ofDump? (text : String) : Option Schema := (Json.ofText? text).bind ofJson?

/-- **A dump loses nothing.** Every schema can be read back from its dump, so no two schemas have
the same. -/
theorem Schema.dump_lossless :
    (∀ s : Schema, ofDump? s.dump = some s) ∧ Function.Injective dump := by
  have hdecode (s : Schema) : ofDump? s.dump = some s := by
    rw [ofDump?, dump, Json.ofText?_text, Option.bind_some, ofJson?_toJson]
  refine ⟨hdecode, fun s t h => ?_⟩
  have hs := hdecode s
  rw [h, hdecode t] at hs
  exact (Option.some.inj hs).symm

end SwiftWrap
