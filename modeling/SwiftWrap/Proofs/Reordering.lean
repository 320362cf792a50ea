import SwiftWrap.Proofs.Appending
import SwiftWrap.Proofs.Concatenation
import Mathlib.Data.Fin.VecNotation
import Mathlib.Data.List.FinRange
import Mathlib.Logic.Equiv.Basic

/-! Messages in another order.

Blocks of lines that hold one message each can stand in any order. In another order the
declarations get other numbers, the file scope lists them in another order, and so do the
tiers of every search that comes to it. Generated code shows none of that: it is made of names
and paths, which are the same under other numbers (`Renumbers.wrapperScript`).

Neighbours that change places take their numbers along in two rows (`Row.reorders_swap`), and
any other order comes about by such changes (`Row.reorders_of_perm`). So the blocks can be read
and linked in all orders or in none, and what is emitted for a block is always the same
(`Schema.linkedOfLines_reordered`). -/
namespace SwiftWrap
open Spelling Grammar

/-! ### Generated code under other numbers -/

namespace Field
variable (number : Nat → Nat) (f : Field)

@[simp] theorem renumber_name : (f.renumber number).name = f.name := rfl

@[simp] theorem renumber_cardinality : (f.renumber number).cardinality = f.cardinality := rfl

@[simp] theorem renumber_isList : (f.renumber number).isList = f.isList := rfl

/-- Renumbering a field renumbers what its type refers to, and nothing else. -/
theorem renumber_type : (f.renumber number).type = f.type.renumber number := rfl

@[simp] theorem renumber_holdsEnum : (f.renumber number).holdsEnum = f.holdsEnum := by
  rw [holdsEnum, renumber_type, holdsEnum]
  cases f.type <;> rfl

@[simp] theorem renumber_holdsMessage : (f.renumber number).holdsMessage = f.holdsMessage := by
  rw [holdsMessage, renumber_type, holdsMessage]
  cases f.type <;> rfl

@[simp] theorem renumber_isOptional : (f.renumber number).isOptional = f.isOptional := by
  rw [isOptional, hasOptionalForm, renumber_type, isOptional, hasOptionalForm,
    renumber_cardinality]
  cases f.type with
  | scalar type => cases type <;> rfl
  | _ => rfl

@[simp] theorem renumber_isObjcVisible : (f.renumber number).isObjcVisible = f.isObjcVisible := by
  rw [isObjcVisible, renumber_isList, renumber_holdsEnum, isObjcVisible]

@[simp] theorem renumber_isConvertedList :
    Swift.isConvertedList (f.renumber number) = Swift.isConvertedList f := by
  rw [Swift.isConvertedList, renumber_isList, renumber_holdsEnum, renumber_holdsMessage,
    Swift.isConvertedList]

@[simp] theorem renumber_readLocal : Swift.readLocal (f.renumber number) = Swift.readLocal f := by
  rw [Swift.readLocal, renumber_isConvertedList, renumber_name, Swift.readLocal]

end Field

/-- The check of a required field names no other declaration. -/
theorem Swift.requiredGuard_renumber (number : Nat → Nat) (error : String) (d : Declaration)
    (f : Field) : Swift.requiredGuard error (d.renumber number) (f.renumber number) =
      Swift.requiredGuard error d f := rfl

namespace Schema.Renumbers
variable {s t : Schema} {number : Equiv.Perm Nat} (h : s.Renumbers number t)
include h

/-- A declaration has its path under its new number. -/
theorem pathOf (id : Nat) : t.pathOf (number id) = s.pathOf id := h.viewAt id "" fun _ => rfl

theorem wireOf (id : Nat) : t.wireOf (number id) = s.wireOf id := h.viewAt id "" fun _ => rfl

/-- So the type of a value is spelled the same. -/
theorem elementType (f : Field) : (f.renumber number).elementType t = f.elementType s := by
  rw [Field.elementType, Field.renumber_type, Field.elementType]
  cases f.type with
  | scalar type => rfl
  | enumeration target => exact h.pathOf target
  | message target => exact h.pathOf target
  | unresolved => rfl

theorem propertyType (f : Field) : (f.renumber number).propertyType t = f.propertyType s := by
  simp only [Field.propertyType, Field.renumber_isList, Field.renumber_isOptional, h.elementType]

theorem wireType (f : Field) : (f.renumber number).wireType t = f.wireType s := by
  rw [Field.wireType, Field.renumber_type, Field.wireType, h.elementType]
  cases f.type with
  | enumeration target => exact h.wireOf target
  | message target => exact h.wireOf target
  | _ => rfl

/-- A converter is found through the renumbered parent. -/
theorem converterRef (id : Nat) (suffix : String) :
    Swift.converterRef t (number id) suffix = Swift.converterRef s id suffix := by
  refine h.viewAt id "" fun d => ?_
  cases hparent : d.parent with
  | none =>
    simp only [Declaration.renumber_parent, hparent, Option.map_none, Declaration.renumber_names]
  | some parent =>
    simp only [Declaration.renumber_parent, hparent, Option.map_some, h.pathOf,
      Declaration.renumber_names]

/-- The outermost message around a declaration goes along with it. -/
theorem errorRef (id : Nat) : Swift.errorRef t (number id) = Swift.errorRef s id := by
  have htop : (t.enclosing (number id)).getLast?.getD (number id) =
      number ((s.enclosing id).getLast?.getD id) := by
    rw [h.enclosing, List.getLast?_map]
    cases (s.enclosing id).getLast? <;> rfl
  rw [Swift.errorRef, htop]
  exact h.viewAt _ "" fun _ => rfl

/-- A value is converted by the same function under another number. -/
theorem wrapped (f : Field) (value : String) :
    Swift.wrapped t (f.renumber number) value = Swift.wrapped s f value := by
  rw [Swift.wrapped, Field.renumber_type, Swift.wrapped]
  cases f.type with
  | enumeration target => simp only [TypeRef.renumber, h.converterRef]
  | message target => simp only [TypeRef.renumber, h.pathOf]
  | _ => rfl

theorem unwrapped (f : Field) (value : String) :
    Swift.unwrapped t (f.renumber number) value = Swift.unwrapped s f value := by
  rw [Swift.unwrapped, Field.renumber_type, Swift.unwrapped]
  cases f.type with
  | enumeration target => simp only [TypeRef.renumber, h.converterRef]
  | _ => rfl

/-- Properties are declared the same. -/
theorem property (f : Field) : Swift.property t (f.renumber number) = Swift.property s f := by
  simp only [Swift.property, Field.renumber_isObjcVisible, Field.renumber_name, h.propertyType]

theorem properties (fields : List Field) :
    Swift.properties t (fields.map (Field.renumber number)) = Swift.properties s fields := by
  simp only [Swift.properties, List.map_map, Function.comp_def, h.property, List.isEmpty_map]

theorem initializer (fields : List Field) :
    Swift.initializer t (fields.map (Field.renumber number)) = Swift.initializer s fields := by
  simp only [Swift.initializer, List.map_map, List.all_map, Function.comp_def, h.propertyType,
    List.isEmpty_map, Field.renumber_name, Field.renumber_isObjcVisible]

theorem readField (f : Field) : Swift.readField t (f.renumber number) = Swift.readField s f := by
  simp only [Swift.readField, Field.renumber_name, Field.renumber_isConvertedList,
    Field.renumber_readLocal, Field.renumber_isList, Field.renumber_isOptional, h.elementType,
    h.propertyType, h.wrapped]

/-- A message is read by the same code under other numbers. -/
theorem parsers (id : Nat) (d : Declaration) :
    Swift.parsers t (number id) (d.renumber number) = Swift.parsers s id d := by
  simp only [Swift.parsers, Declaration.renumber_fields, List.map_map, List.flatMap_map,
    Function.comp_def, Field.renumber_name, Field.renumber_readLocal, h.readField, h.errorRef,
    Swift.requiredGuard_renumber, Declaration.renumber_names]

theorem buildField (f : Field) : Swift.buildField t (f.renumber number) = Swift.buildField s f := by
  simp only [Swift.buildField, Field.renumber_name, Field.renumber_isList,
    Field.renumber_isOptional, h.wireType, h.unwrapped]

/-- And written by the same code. -/
theorem builder (d : Declaration) :
    Swift.builder t (d.renumber number) = Swift.builder s d := by
  simp only [Swift.builder, Declaration.renumber_fields, Declaration.renumber_names,
    List.isEmpty_map, List.flatMap_map, h.buildField]

theorem messageScript (id : Nat) (d : Declaration) (nested : Script) :
    Swift.messageScript t (number id) (d.renumber number) nested =
      Swift.messageScript s id d nested := by
  have hmark : Swift.markLine (d.renumber number) = Swift.markLine d := by
    rw [Swift.markLine, Declaration.renumber_names, Swift.markLine]
  have herror : Swift.errorEnum (d.renumber number) = Swift.errorEnum d := by
    rw [Swift.errorEnum, Declaration.renumber_parent, Option.isNone_map,
      Declaration.renumber_names, Swift.errorEnum]
  rw [Swift.messageScript, hmark, herror, Declaration.renumber_fields, Declaration.renumber_names,
    h.properties, h.initializer, h.parsers, h.builder, Swift.messageScript]

/-- **A wrapper does not show the numbers it was made from.** -/
theorem declarationScript (id : Nat) (d : Declaration) (nested : Script) :
    Swift.declarationScript t (number id) (d.renumber number) nested =
      Swift.declarationScript s id d nested := by
  obtain ⟨name, parent, body, names⟩ := d
  cases body with
  | message children fields => exact h.messageScript id _ nested
  | enumeration items => rfl

/-- **Generated code does not show the numbers of declarations.** -/
theorem wrapperScript (id : Nat) :
    Swift.wrapperScript t (number id) = Swift.wrapperScript s id := by
  have hcollect : Swift.wrapperScript t (number id) =
      (Swift.wrapperScript s id).map fun step => step :=
    h.collect (fun k d below _ => by rw [List.map_id', List.map_id', h.declarationScript]) id
  rwa [List.map_id'] at hcollect

end Schema.Renumbers

/-! ### Forests side by side -/

/-- The two rows of numbers from `n` on, of lengths `p` and `q`, in the other order. -/
def swapRows (n p q : Nat) : Equiv.Perm Nat where
  toFun id := if id < n then id else if id < n + p then id + q
    else if id < n + p + q then id - p else id
  invFun id := if id < n then id else if id < n + q then id + p
    else if id < n + q + p then id - q else id
  left_inv id := by
    simp only
    split_ifs <;> omega
  right_inv id := by
    simp only
    split_ifs <;> omega

/-- Two neighbouring rows of numbers change places; those before and behind stay. -/
theorem swapRows_apply (n p q id : Nat) : swapRows n p q id =
    if id < n then id else if id < n + p then id + q else if id < n + p + q then id - p else id :=
  rfl

/-- What stands at a number stands at its new number when the rows have changed places. -/
theorem getElem?_swapRows {front first second rest : List α} {n p q : Nat} (hn : front.length = n)
    (hp : first.length = p) (hq : second.length = q) (id : Nat) :
    (front ++ (second ++ (first ++ rest)))[swapRows n p q id]? =
      (front ++ (first ++ (second ++ rest)))[id]? := by
  simp only [List.getElem?_append, hn, hp, hq, swapRows_apply]
  split_ifs <;> first | omega | (congr 1 <;> omega)

namespace Forest

/-- No type of a field has been looked up. -/
def AsDeclared (f : Forest) : Prop :=
  ∀ parent n, ∀ d ∈ f.declarations parent n, ∀ field ∈ d.fields, field.AsDeclared

/-- Forests in which no type is resolved can stand one behind the other. -/
theorem AsDeclared.append {f g : Forest} (h : f.AsDeclared) (h' : g.AsDeclared) :
    (f ++ g).AsDeclared := by
  intro parent n
  rw [declarations_append]
  exact List.forall_mem_append.2 ⟨h parent n, h' parent _⟩

end Forest

section Rows
variable (n p q : Nat)

theorem movesRow_front : MovesRow (swapRows n p q) 0 0 n := by
  intro k hk
  rw [swapRows_apply, if_pos (by omega)]

/-- The first row moves as a whole, past the second. -/
theorem movesRow_first : MovesRow (swapRows n p q) n (n + q) p := by
  intro k hk
  rw [swapRows_apply, if_neg (by omega), if_pos (by omega)]
  omega

/-- And the second moves to where the first began. -/
theorem movesRow_second : MovesRow (swapRows n p q) (n + p) n q := by
  intro k hk
  rw [swapRows_apply, if_neg (by omega), if_neg (by omega), if_pos (by omega)]
  omega

theorem movesRow_rest (size : Nat) :
    MovesRow (swapRows n p q) (n + p + q) (n + q + p) size := by
  intro k _
  rw [swapRows_apply, if_neg (by omega), if_neg (by omega), if_neg (by omega)]
  omega

end Rows

/-- Forests one after another, each with a label. -/
abbrev Row (ι : Type) := List (ι × Forest)

namespace Row
variable {ι : Type}

/-- The forests as one. -/
def forest : Row ι → Forest
  | [] => .nil
  | (_, f) :: rest => f ++ forest rest

/-- The numbers of the outermost declarations, each with the label of its forest. -/
def numbers (n : Nat) : Row ι → List (ι × Nat)
  | [] => []
  | (i, f) :: rest => (f.numbers n).map (i, ·) ++ numbers (n + f.size) rest

/-- The schema of the forests. -/
def schema (row : Row ι) : Schema := (⟨none, row.forest⟩ : Document).toSchema

/-- The forest of two rows is that of the first before that of the second. -/
theorem forest_append (first second : Row ι) :
    forest (first ++ second) = first.forest ++ second.forest := by
  induction first with
  | nil => rfl
  | cons x rest ih =>
    obtain ⟨i, f⟩ := x
    rw [List.cons_append, forest, ih, forest, Forest.append_assoc]

/-- Numbers go on where the first row ends. -/
theorem numbers_append (first second : Row ι) (n : Nat) :
    numbers n (first ++ second) = first.numbers n ++ second.numbers (n + first.forest.size) := by
  induction first generalizing n with
  | nil => rfl
  | cons x rest ih =>
    obtain ⟨i, f⟩ := x
    rw [List.cons_append, numbers, ih, numbers, List.append_assoc, forest, Forest.size_append,
      Nat.add_assoc]

/-- The numbers of a row are those of its forest, with a label each. -/
theorem map_snd_numbers (row : Row ι) (n : Nat) :
    (row.numbers n).map Prod.snd = row.forest.numbers n := by
  induction row generalizing n with
  | nil => rfl
  | cons x rest ih =>
    obtain ⟨i, f⟩ := x
    rw [numbers, List.map_append, ih, forest, Forest.numbers_append, List.map_map]
    exact congrArg (· ++ _) (List.map_id' (f.numbers n))

/-- Where a row moves as a whole, its labels keep their numbers relative to it. -/
theorem numbers_renumber {row : Row ι} {number : Nat → Nat} {n m : Nat}
    (h : MovesRow number n m row.forest.size) :
    (row.numbers n).map (Prod.map id number) = row.numbers m := by
  induction row generalizing n m with
  | nil => rfl
  | cons x rest ih =>
    obtain ⟨i, f⟩ := x
    rw [forest, Forest.size_append] at h
    rw [numbers, List.map_append, ih h.back, numbers, ← Forest.numbers_renumber h.front,
      List.map_map, List.map_map]
    rfl

/-- The forests of one row are those of another in some order, up to the numbers. -/
def Reorders (row row' : Row ι) : Prop :=
  ∃ number : Equiv.Perm Nat, row.schema.Renumbers number row'.schema ∧
    (row'.numbers 0).Perm ((row.numbers 0).map (Prod.map id number))

theorem Reorders.refl (row : Row ι) : row.Reorders row := by
  have hid : Declaration.renumber (Equiv.refl Nat) = id := funext Declaration.renumber_id
  refine ⟨Equiv.refl Nat, ⟨Document.isForest _, Document.isForest _, fun id => ?_, ?_⟩, ?_⟩
  · rw [hid, Option.map_id]
    rfl
  · exact .of_eq (List.map_id _).symm
  · exact .of_eq (List.map_id _).symm

/-- Exchanges one after another are an exchange. -/
theorem Reorders.trans {row row' row'' : Row ι} (h : row.Reorders row') (h' : row'.Reorders row'') :
    row.Reorders row'' := by
  obtain ⟨number, hschema, hnumbers⟩ := h
  obtain ⟨number', hschema', hnumbers'⟩ := h'
  refine ⟨number.trans number', hschema.trans hschema', ?_⟩
  have hboth := hnumbers'.trans (hnumbers.map (Prod.map id number'))
  rwa [List.map_map, Prod.map_comp_map] at hboth

section Swap
variable {front rest : Row ι} {i j : ι} {f g : Forest}

/-- Each declaration stands under its new number, renumbered. -/
theorem declarations_swap (hfront : front.forest.AsDeclared) (hf : f.AsDeclared)
    (hg : g.AsDeclared) (hrest : rest.forest.AsDeclared) (id : Nat) :
    (front ++ (j, g) :: (i, f) :: rest).schema.get? (swapRows front.forest.size f.size g.size id) =
      ((front ++ (i, f) :: (j, g) :: rest).schema.get? id).map
        (Declaration.renumber (swapRows front.forest.size f.size g.size)) := by
  have hF := Forest.declarations_renumber (movesRow_front front.forest.size f.size g.size)
    (hfront none 0)
  have hA := Forest.declarations_renumber (movesRow_first front.forest.size f.size g.size)
    (hf none _)
  have hB := Forest.declarations_renumber (movesRow_second front.forest.size f.size g.size)
    (hg none _)
  have hR := Forest.declarations_renumber
    (movesRow_rest front.forest.size f.size g.size rest.forest.size) (hrest none _)
  have htarget : (front ++ (j, g) :: (i, f) :: rest).schema.declarations =
      (front.forest.declarations none 0 ++ (g.declarations none (front.forest.size + f.size) ++
        (f.declarations none front.forest.size ++
          rest.forest.declarations none (front.forest.size + f.size + g.size)))).map
        (Declaration.renumber (swapRows front.forest.size f.size g.size)) := by
    rw [List.map_append, List.map_append, List.map_append, hF, hB, hA, hR]
    simp only [schema, Document.toSchema, forest_append, forest, Forest.declarations_append,
      Nat.zero_add, Option.map_none]
  rw [Schema.get?, htarget, List.getElem?_map, getElem?_swapRows (Forest.length_declarations ..)
    (Forest.length_declarations ..) (Forest.length_declarations ..)]
  simp only [Schema.get?, schema, Document.toSchema, forest_append, forest,
    Forest.declarations_append, Nat.zero_add]

/-- And each root keeps its label. -/
theorem numbers_swap (front rest : Row ι) (i j : ι) (f g : Forest) :
    (numbers 0 (front ++ (j, g) :: (i, f) :: rest)).Perm
      ((numbers 0 (front ++ (i, f) :: (j, g) :: rest)).map
        (Prod.map id (swapRows front.forest.size f.size g.size))) := by
  have hF := numbers_renumber (movesRow_front front.forest.size f.size g.size)
  have hA := Forest.numbers_renumber (movesRow_first front.forest.size f.size g.size)
  have hB := Forest.numbers_renumber (movesRow_second front.forest.size f.size g.size)
  have hR := numbers_renumber
    (movesRow_rest front.forest.size f.size g.size rest.forest.size)
  simp only [numbers_append, numbers, Nat.zero_add, List.map_append, hF, hR, ← hA, ← hB,
    List.map_map]
  exact List.Perm.append_left _ (List.perm_append_comm_assoc ..)

/-- Two neighbours that change places take their numbers along in two rows. -/
theorem reorders_swap (hfront : front.forest.AsDeclared) (hf : f.AsDeclared) (hg : g.AsDeclared)
    (hrest : rest.forest.AsDeclared) :
    Reorders (front ++ (i, f) :: (j, g) :: rest) (front ++ (j, g) :: (i, f) :: rest) := by
  have hnumbers := numbers_swap front rest i j f g
  refine ⟨_, ⟨Document.isForest _, Document.isForest _, declarations_swap hfront hf hg hrest, ?_⟩,
    hnumbers⟩
  have hroots := hnumbers.map Prod.snd
  have hsnd (number : Nat → Nat) :
      Prod.snd ∘ Prod.map id number = number ∘ (Prod.snd : ι × Nat → Nat) := rfl
  rwa [List.map_map, hsnd, ← List.map_map, map_snd_numbers, map_snd_numbers] at hroots

end Swap

/-- A row of forests without resolved types is a forest without resolved types. -/
theorem asDeclared_forest {row : Row ι} (h : ∀ x ∈ row, x.2.AsDeclared) :
    row.forest.AsDeclared := by
  induction row with
  | nil => exact fun _ _ _ hd => nomatch hd
  | cons x rest ih =>
    obtain ⟨hx, hrest⟩ := List.forall_mem_cons.1 h
    exact hx.append (ih hrest)

/-- Any change of order is one neighbour at a time. -/
theorem reorders_of_perm {row row' : Row ι} (h : row.Perm row') {front : Row ι}
    (hfront : ∀ x ∈ front, x.2.AsDeclared) (hrow : ∀ x ∈ row, x.2.AsDeclared) :
    Reorders (front ++ row) (front ++ row') := by
  induction h generalizing front with
  | nil => exact .refl _
  | @cons x rest rest' _ ih =>
    obtain ⟨hx, hrest⟩ := List.forall_mem_cons.1 hrow
    have hmore : ∀ y ∈ front ++ [x], y.2.AsDeclared :=
      List.forall_mem_append.2 ⟨hfront, List.forall_mem_singleton.2 hx⟩
    simpa only [List.append_assoc, List.singleton_append] using ih hmore hrest
  | swap x y rest =>
    obtain ⟨hy, hx, hrest⟩ := by simpa only [List.forall_mem_cons] using hrow
    exact reorders_swap (asDeclared_forest hfront) hy hx (asDeclared_forest hrest)
  | trans h _ ih ih' =>
    exact (ih hfront hrow).trans (ih' hfront fun x hx => hrow x (h.mem_iff.2 hx))

/-- Where every forest has one outermost declaration, there is a number for each label. -/
theorem map_fst_numbers {row : Row ι} (h : ∀ x ∈ row, ∀ n, x.2.numbers n = [n]) (n : Nat) :
    (row.numbers n).map Prod.fst = row.map Prod.fst := by
  induction row generalizing n with
  | nil => rfl
  | cons x rest ih =>
    obtain ⟨hx, hrest⟩ := List.forall_mem_cons.1 h
    rw [numbers, List.map_append, ih hrest, hx]
    rfl

end Row

/-! ### Blocks -/

/-- Lines that open a message at file scope and close it at their end. -/
structure IsMessageBlock (lines : List Line) : Prop where
  opens : ∃ line ∈ lines.head?, ∃ name, IsBlock .message line.text name
  closes : openBlocks (lines.map (·.text)) = []
  /-- The message is not closed before the end. -/
  inside : ∀ k, 0 < k → k < lines.length → openBlocks ((lines.take k).map (·.text)) ≠ []

/-- A block that is read is one message. -/
theorem IsMessageBlock.exists_message {lines : List Line} (h : IsMessageBlock lines) {d : Document}
    (hd : Document.ofLines lines = .ok d) :
    ∃ name fields nested, d = ⟨none, .message name fields nested .nil⟩ := by
  obtain ⟨packages, hfile, -, hpackage⟩ := Document.ofLines_eq_ok_iff.1 hd
  obtain ⟨line, hline, name, hblock⟩ := h.opens
  have hhead : (lines.map (·.text)).head? = some line.text := by
    rw [List.head?_map, hline]
    rfl
  have hread := FileStatement.read?_eq_some_iff.2 (.openMessage hblock)
  obtain ⟨package, roots⟩ := d
  cases hpackage
  generalize htexts : lines.map (·.text) = texts at hfile hhead
  cases hfile with
  | nil => cases hhead
  | ignored hignored _ =>
    cases hhead
    rw [FileStatement.read?_eq_some_iff.2 (.ignored hignored)] at hread
    cases hread
  | package hpackage _ =>
    cases hhead
    rw [FileStatement.read?_eq_some_iff.2 (.package hpackage)] at hread
    cases hread
  | @message text name inner fields nested rest packages roots hopen hinner hapart hrest =>
    have hsplit : lines.map (·.text) = (text :: inner ++ ["\x7d"]) ++ rest := by simp [htexts]
    obtain ⟨front, back, rfl, hfront, rfl⟩ := List.map_eq_append_iff.1 hsplit
    -- The message alone can be read, so nothing is open where it ends.
    have hmessage : IsFile (front.map (·.text)) [] (.message name fields nested .nil) := by
      rw [hfront]
      exact .message hopen hinner hapart .nil
    have hfirst : Document.ofLines front = .ok ⟨none, .message name fields nested .nil⟩ :=
      Document.ofLines_eq_ok_iff.2 ⟨[], hmessage, Nat.zero_le 1, rfl⟩
    have hback : back = [] := by
      by_contra hne
      have hlength : front.length = inner.length + 2 := by simpa using congrArg List.length hfront
      have hinside := h.inside front.length (by omega)
        (by simpa [List.length_append] using List.length_pos_iff.2 hne)
      rw [List.take_left] at hinside
      exact hinside (Document.openBlocks_of_ofLines hfirst)
    subst hback
    cases hrest
    exact ⟨name, fields, nested, rfl⟩

namespace Document
variable {ι : Type} {blocks : ι → List Line}

/-- Blocks that can be read can be read one after another. -/
theorem ofLines_flatMap {order : List ι} {f : ι → Forest} (h : ∀ i, IsMessageBlock (blocks i))
    (hf : ∀ i ∈ order, ofLines (blocks i) = .ok ⟨none, f i⟩) :
    ofLines (order.flatMap blocks) = .ok ⟨none, Row.forest (order.map fun i => (i, f i))⟩ := by
  induction order with
  | nil => rfl
  | cons i rest ih =>
    obtain ⟨hi, hrest⟩ := List.forall_mem_cons.1 hf
    rw [List.flatMap_cons, ofLines_append_iff (h i).closes]
    exact ⟨_, _, hi, ih hrest, .inl rfl, rfl⟩

/-- Blocks that can be read together can be read one by one. -/
theorem exists_of_ofLines_flatMap {order : List ι} {d : Document}
    (h : ∀ i, IsMessageBlock (blocks i)) (hd : ofLines (order.flatMap blocks) = .ok d) :
    ∀ i ∈ order, ∃ e, ofLines (blocks i) = .ok e := by
  induction order generalizing d with
  | nil => simp
  | cons i rest ih =>
    rw [List.flatMap_cons, ofLines_append_iff (h i).closes] at hd
    obtain ⟨e, e', hi, hrest, -⟩ := hd
    exact List.forall_mem_cons.2 ⟨⟨e, hi⟩, ih hrest⟩

/-- Nothing that is read has a resolved type yet. -/
theorem asDeclared_roots {lines : List Line} {d : Document} (h : ofLines lines = .ok d) :
    d.roots.AsDeclared := by
  obtain ⟨packages, hfile, -⟩ := ofLines_eq_ok_iff.1 h
  intro parent n e he f hf
  obtain ⟨text, -, hfield⟩ := ((spelledBy_of_isFile hfile).2 parent n e he).fields f hf
  exact hfield.asDeclared

end Document

/-! ### The theorem -/

namespace Schema

/-- The schema that lines hold, linked. -/
def linkedOfLines (p : Prefixes) (lines : List Line) : Except Problem Schema := do
  let s ← ofLines lines
  s.linked p

example (p : Prefixes) (text : String) :
    linkedOfText p text = linkedOfLines p (Source.lines text) := rfl

/-- Lines hold a linked schema if they hold a document whose links succeed. -/
theorem linkedOfLines_eq_ok_iff {p : Prefixes} {lines : List Line} {s : Schema} :
    linkedOfLines p lines = .ok s ↔ ∃ d, Document.ofLines lines = .ok d ∧
      (d.toSchema.link p).problem = none ∧ (d.toSchema.link p).schema = s := by
  rw [linkedOfLines, ofLines_eq_toSchema]
  cases Document.ofLines lines with
  | error problem => simp [Except.map, bind, Except.bind]
  | ok d =>
    show d.toSchema.linked p = _ ↔ _
    unfold linked
    cases hlink : d.toSchema.link p with
    | mk t problem => cases problem <;> simp [hlink]

end Schema

/-- Labels that occur once each, and occur again in another order with what belongs to them. -/
theorem exists_labelling {ι : Type} {pairs pairs' : List (ι × α)}
    (hall : ∀ i, i ∈ pairs.map Prod.fst) (hnodup : (pairs.map Prod.fst).Nodup)
    (h : pairs'.Perm pairs) : ∃ value : ι → α,
      pairs.map Prod.snd = (pairs.map Prod.fst).map value ∧
      pairs'.map Prod.snd = (pairs'.map Prod.fst).map value := by
  have hsome : ∀ i, ∃ a, (i, a) ∈ pairs := by
    intro i
    obtain ⟨⟨_, a⟩, hmem, rfl⟩ := List.mem_map.1 (hall i)
    exact ⟨a, hmem⟩
  choose value hvalue using hsome
  have hsnd : ∀ x ∈ pairs, x.2 = value x.1 := by
    intro x hx
    have heq := List.inj_on_of_nodup_map hnodup hx (hvalue x.1) rfl
    exact congrArg Prod.snd heq
  refine ⟨value, ?_, ?_⟩
  · rw [List.map_map]
    exact List.map_congr_left hsnd
  · rw [List.map_map]
    exact List.map_congr_left fun x hx => hsnd x (h.mem_iff.1 hx)

namespace Swift

/-- A wrapper has the same lines under its new number. -/
theorem wrapperLines_of_renumbers {s t : Schema} {number : Equiv.Perm Nat}
    (h : s.Renumbers number t) (id : Nat) : wrapperLines t (number id) = wrapperLines s id := by
  rw [wrapperLines, h.wrapperScript, wrapperLines]

/-- Generated code is the lines of its head and of its wrappers, in the order of the roots. -/
theorem code_of_wrapperLines {s : Schema} (hs : s.IsForest) {parts : List (List String)}
    (h : s.roots.map (wrapperLines s) = parts) :
    code s = Script.unlines (headLines ++ parts.flatten) := by
  rw [← h, ← List.flatMap_def]
  refine code_eq_parts s fun root hroot => ?_
  obtain ⟨d, hd, -⟩ := hs.root root hroot
  exact ⟨d, hd⟩

end Swift

section Order
variable {ι : Type} {blocks : ι → List Line} {order order' : List ι} {p : Prefixes}

/-- The messages of blocks, in some order. -/
def blockRow (f : ι → Forest) (order : List ι) : Row ι := order.map fun i => (i, f i)

/-- A block that can be read alone is one message, wherever it stands. -/
theorem exists_forests (h : ∀ i, IsMessageBlock (blocks i))
    (hall : ∀ i, ∃ d, Document.ofLines (blocks i) = .ok d) :
    ∃ f : ι → Forest, (∀ i, Document.ofLines (blocks i) = .ok ⟨none, f i⟩) ∧
      (∀ i n, (f i).numbers n = [n]) ∧ ∀ i, (f i).AsDeclared := by
  choose d hd using hall
  have hone (i : ι) : ∃ name fields nested, d i = ⟨none, .message name fields nested .nil⟩ :=
    (h i).exists_message (hd i)
  refine ⟨fun i => (d i).roots, fun i => ?_, fun i n => ?_,
    fun i => Document.asDeclared_roots (hd i)⟩
  · obtain ⟨name, fields, nested, heq⟩ := hone i
    simp only [hd, heq]
  · obtain ⟨name, fields, nested, heq⟩ := hone i
    simp only [heq]
    rfl

/-- What is emitted for the roots of a linked row, with their labels. -/
theorem exists_emitted {row row' : Row ι} (h : row.Reorders row')
    (hok : (row.schema.link p).problem = none)
    (hone : ∀ x ∈ row, ∀ n, x.2.numbers n = [n]) (hone' : ∀ x ∈ row', ∀ n, x.2.numbers n = [n])
    (hall : ∀ i, i ∈ row.map Prod.fst) (hnodup : (row.map Prod.fst).Nodup) :
    (row'.schema.link p).problem = none ∧ ∃ emitted : ι → List String,
      ((row.schema.link p).schema.roots.map (Swift.wrapperLines (row.schema.link p).schema) =
        (row.map Prod.fst).map emitted) ∧
      ((row'.schema.link p).schema.roots.map (Swift.wrapperLines (row'.schema.link p).schema) =
        (row'.map Prod.fst).map emitted) := by
  obtain ⟨number, hschema, hnumbers⟩ := h
  refine ⟨hschema.link_ok hok, ?_⟩
  have hlines : Swift.wrapperLines (row'.schema.link p).schema ∘ number =
      Swift.wrapperLines (row.schema.link p).schema :=
    funext (Swift.wrapperLines_of_renumbers (hschema.link hok))
  have hpairs := hnumbers.map (Prod.map id (Swift.wrapperLines (row'.schema.link p).schema))
  rw [List.map_map, Prod.map_comp_map, hlines, Function.comp_id] at hpairs
  have hfst (row : Row ι) (g : Nat → List String) (hone : ∀ x ∈ row, ∀ n, x.2.numbers n = [n]) :
      ((row.numbers 0).map (Prod.map id g)).map Prod.fst = row.map Prod.fst := by
    rw [List.map_map, ← Row.map_fst_numbers hone 0]
    rfl
  have hsnd (row : Row ι) (g : Nat → List String) :
      ((row.numbers 0).map (Prod.map id g)).map Prod.snd =
        (row.schema.link p).schema.roots.map g := by
    have hroots : (row.schema.link p).schema.roots = row.forest.numbers 0 :=
      Schema.roots_of_unlinked_eq (Schema.unlinked_link row.schema p)
    rw [hroots, ← Row.map_snd_numbers, List.map_map, List.map_map]
    rfl
  obtain ⟨emitted, hemitted, hemitted'⟩ := exists_labelling (by rwa [hfst row _ hone])
    (by rwa [hfst row _ hone]) hpairs
  rw [hfst row _ hone, hsnd] at hemitted
  rw [hfst row' _ hone', hsnd] at hemitted'
  exact ⟨emitted, hemitted, hemitted'⟩

/-- In another order, blocks still link, and each has the lines that it had. -/
theorem exists_reordered {s : Schema} (h : ∀ i, IsMessageBlock (blocks i))
    (hall : ∀ i, i ∈ order) (hnodup : order.Nodup) (hperm : order.Perm order')
    (hs : Schema.linkedOfLines p (order.flatMap blocks) = .ok s) :
    ∃ t, Schema.linkedOfLines p (order'.flatMap blocks) = .ok t ∧ s.IsForest ∧ t.IsForest ∧
      ∃ emitted : ι → List String, s.roots.map (Swift.wrapperLines s) = order.map emitted ∧
        t.roots.map (Swift.wrapperLines t) = order'.map emitted := by
  obtain ⟨d, hd, hok, rfl⟩ := Schema.linkedOfLines_eq_ok_iff.1 hs
  obtain ⟨f, hf, hone, hdeclared⟩ := exists_forests h fun i =>
    Document.exists_of_ofLines_flatMap h hd i (hall i)
  cases hd.symm.trans (Document.ofLines_flatMap h fun i _ => hf i)
  have hfst (order : List ι) : (blockRow f order).map Prod.fst = order := by
    rw [blockRow, List.map_map]
    exact List.map_id' order
  have hmem {P : Forest → Prop} (hP : ∀ i, P (f i)) (order : List ι) :
      ∀ x ∈ blockRow f order, P x.2 := by
    intro x hx
    obtain ⟨i, -, rfl⟩ := List.mem_map.1 hx
    exact hP i
  have hreorders : (blockRow f order).Reorders (blockRow f order') :=
    Row.reorders_of_perm (hperm.map _) (List.forall_mem_nil _) (hmem hdeclared order)
  have hsingle := hmem (P := fun f => ∀ n, f.numbers n = [n]) hone
  obtain ⟨hok', emitted, hemitted, hemitted'⟩ := exists_emitted hreorders hok (hsingle order)
    (hsingle order') (by rwa [hfst]) (by rwa [hfst])
  rw [hfst] at hemitted hemitted'
  have hforest (row : Row ι) : (row.schema.link p).schema.IsForest :=
    (Document.isForest _).of_unlinked_eq (Schema.unlinked_link row.schema p)
  refine ⟨_, Schema.linkedOfLines_eq_ok_iff.2
    ⟨_, Document.ofLines_flatMap h fun i _ => hf i, hok', rfl⟩, hforest _, hforest _, emitted,
    hemitted, hemitted'⟩

end Order

/-- **Generated code does not depend on the order of the messages at file scope.** Blocks in some
order can be read and linked exactly if they can in any other. What is emitted for a block is
then the same, and the two codes have the same lines at the top and below them what is emitted
for the blocks, in their order. -/
theorem Schema.linkedOfLines_reordered {n : Nat} {blocks : Fin n → List Line}
    (h : ∀ i, IsMessageBlock (blocks i)) (p : Prefixes) (order : Equiv.Perm (Fin n)) :
    ((∃ t, linkedOfLines p (List.ofFn (blocks ∘ order)).flatten = .ok t) ↔
      ∃ s, linkedOfLines p (List.ofFn blocks).flatten = .ok s) ∧
    ∀ s t, linkedOfLines p (List.ofFn blocks).flatten = .ok s →
      linkedOfLines p (List.ofFn (blocks ∘ order)).flatten = .ok t →
      ∃ emitted : Fin n → List String,
        s.roots.map (Swift.wrapperLines s) = List.ofFn emitted ∧
        t.roots.map (Swift.wrapperLines t) = List.ofFn (emitted ∘ order) ∧
        Swift.code s = Script.unlines (Swift.headLines ++ (List.ofFn emitted).flatten) ∧
        Swift.code t = Script.unlines (Swift.headLines ++ (List.ofFn (emitted ∘ order)).flatten) := by
  have hperm := order.map_finRange_perm
  have hall := List.mem_finRange (n := n)
  have hall' (i : Fin n) : i ∈ (List.finRange n).map order := hperm.mem_iff.2 (hall i)
  have hnodup := List.nodup_finRange n
  have hsource : (List.ofFn blocks).flatten = (List.finRange n).flatMap blocks := by
    rw [List.ofFn_eq_map, List.flatMap_def]
  have htarget : (List.ofFn (blocks ∘ order)).flatten =
      ((List.finRange n).map order).flatMap blocks := by
    rw [List.ofFn_eq_map, ← List.map_map, List.flatMap_def]
  rw [hsource, htarget]
  refine ⟨⟨fun ht => ?_, fun hs => ?_⟩, fun s t hs ht => ?_⟩
  · obtain ⟨t, ht⟩ := ht
    obtain ⟨s, hs, -⟩ := exists_reordered h hall' (hperm.nodup_iff.2 hnodup) hperm ht
    exact ⟨s, hs⟩
  · obtain ⟨s, hs⟩ := hs
    obtain ⟨t, ht, -⟩ := exists_reordered h hall hnodup hperm.symm hs
    exact ⟨t, ht⟩
  · obtain ⟨t', ht', hforest, hforest', emitted, hemitted, hemitted'⟩ :=
      exists_reordered h hall hnodup hperm.symm hs
    cases ht.symm.trans ht'
    rw [← List.ofFn_eq_map] at hemitted
    rw [List.map_map, ← List.ofFn_eq_map] at hemitted'
    exact ⟨emitted, hemitted, hemitted', Swift.code_of_wrapperLines hforest hemitted,
      Swift.code_of_wrapperLines hforest' hemitted'⟩

/-- The lines of a message with one field. -/
def memberLines (name : String) : List Line :=
  [⟨s!"message {name} \x7b", 1⟩, ⟨"optional string x = 1;", 2⟩, ⟨"\x7d", 3⟩]

/-- The document of two such messages. -/
def Document.members (first second : String) : Document where
  package := none
  roots :=
    let field := Field.declare (some .optional) "string" "x" 1 none
    .message first [field] .nil (.message second [field] .nil .nil)

theorem Schema.linkedOfLines_reordered_pair : ∃ s t, ∃ emitted : Fin 2 → List String,
    linkedOfLines ⟨"W", "P"⟩ (memberLines "A" ++ memberLines "B") = .ok s ∧
    linkedOfLines ⟨"W", "P"⟩ (memberLines "B" ++ memberLines "A") = .ok t ∧
    Swift.code s = Script.unlines (Swift.headLines ++ (emitted 0 ++ (emitted 1 ++ []))) ∧
    Swift.code t = Script.unlines (Swift.headLines ++ (emitted 1 ++ (emitted 0 ++ []))) := by
  have hblocks : ∀ i, IsMessageBlock (![memberLines "A", memberLines "B"] i) := by
    have hinside (k : Nat) (hpos : 0 < k) (hlt : k < 3) : k = 1 ∨ k = 2 := by omega
    refine Fin.forall_fin_two.2
      ⟨⟨?_, by rfl, fun k hpos hlt => ?_⟩, ?_, by rfl, fun k hpos hlt => ?_⟩
    · exact ⟨_, rfl, "A", blockName?_eq_some_iff.1 (by rfl)⟩
    · rcases hinside k hpos hlt with rfl | rfl <;> decide +kernel
    · exact ⟨_, rfl, "B", blockName?_eq_some_iff.1 (by rfl)⟩
    · rcases hinside k hpos hlt with rfl | rfl <;> decide +kernel
  have hread : Document.ofLines (memberLines "A" ++ memberLines "B") =
      .ok (Document.members "A" "B") := by rfl
  have hlink : ((Document.members "A" "B").toSchema.link ⟨"W", "P"⟩).problem = none := by
    refine (link_ok_iff_linkFields (Document.isForest _)).2 fun id hid => ?_
    have hid' : id = 0 ∨ id = 1 := by
      have : id < 2 := hid
      omega
    rcases hid' with rfl | rfl
    · exact ⟨_, rfl⟩
    · exact ⟨_, rfl⟩
  obtain ⟨hsame, hcode⟩ := linkedOfLines_reordered hblocks ⟨"W", "P"⟩ (Equiv.swap 0 1)
  have hs := linkedOfLines_eq_ok_iff.2 ⟨_, hread, hlink, rfl⟩
  obtain ⟨t, ht⟩ := hsame.2 ⟨_, hs⟩
  obtain ⟨emitted, -, -, hfirst, hsecond⟩ := hcode _ t hs ht
  exact ⟨_, t, emitted, hs, ht, hfirst, hsecond⟩

end SwiftWrap
