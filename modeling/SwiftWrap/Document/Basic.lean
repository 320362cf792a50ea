import SwiftWrap.Schema.Basic

/-! Declarations as a forest, and their numbering.

A forest is a list of declarations with what is nested in each; it has no numbers in it.
`Forest.declarations` numbers it in the order in which the blocks open, so a declaration
comes before what is nested in it, and that before its next sibling. -/
namespace SwiftWrap

/-- Sibling declarations in the order of the source. -/
inductive Forest where
  | nil
  | message (name : String) (fields : List Field) (nested rest : Forest)
  | enumeration (name : String) (items : List Item) (rest : Forest)
deriving DecidableEq

namespace Forest

/-- One forest after another. -/
def append : Forest → Forest → Forest
  | nil, g => g
  | message name fields nested rest, g => message name fields nested (rest.append g)
  | enumeration name items rest, g => enumeration name items (rest.append g)

instance : Append Forest := ⟨append⟩

/-- How many declarations there are at all depths. -/
def size : Forest → Nat
  | nil => 0
  | message _ _ nested rest => 1 + nested.size + rest.size
  | enumeration _ _ rest => 1 + rest.size

/-- The numbers of the outermost declarations, if the first has number `n`. -/
def numbers (n : Nat) : Forest → List Nat
  | nil => []
  | message _ _ nested rest => n :: rest.numbers (n + 1 + nested.size)
  | enumeration _ _ rest => n :: rest.numbers (n + 1)

/-- The declarations in order of their numbers, if the first has number `n` and all the
outermost have the given parent. -/
def declarations (parent : Option Nat) (n : Nat) : Forest → List Declaration
  | nil => []
  | message name fields nested rest =>
    ⟨name, parent, .message (nested.numbers (n + 1)) fields, .none⟩ ::
      (nested.declarations (some n) (n + 1) ++ rest.declarations parent (n + 1 + nested.size))
  | enumeration name items rest =>
    ⟨name, parent, .enumeration items, .none⟩ :: rest.declarations parent (n + 1)

/-! ### Appending and numbering -/

@[simp] theorem nil_append (f : Forest) : nil ++ f = f := rfl

@[simp] theorem message_append (name : String) (fields : List Field) (nested rest f : Forest) :
    message name fields nested rest ++ f = message name fields nested (rest ++ f) := rfl

@[simp] theorem enumeration_append (name : String) (items : List Item) (rest f : Forest) :
    enumeration name items rest ++ f = enumeration name items (rest ++ f) := rfl

@[simp] theorem append_nil (f : Forest) : f ++ nil = f := by
  induction f with
  | nil => rfl
  | message name fields nested rest _ ih => rw [message_append, ih]
  | enumeration name items rest ih => rw [enumeration_append, ih]

/-- Forests stand one behind the other, however they are put together. -/
theorem append_assoc (f g h : Forest) : f ++ g ++ h = f ++ (g ++ h) := by
  induction f with
  | nil => rfl
  | message name fields nested rest _ ih => simp only [message_append, ih]
  | enumeration name items rest ih => simp only [enumeration_append, ih]

@[simp] theorem size_append (f g : Forest) : (f ++ g).size = f.size + g.size := by
  induction f with
  | nil => simp [size]
  | message name fields nested rest _ ih => simp only [message_append, size, ih]; omega
  | enumeration name items rest ih => simp only [enumeration_append, size, ih]; omega

/-- There are as many declarations as the forest has. -/
@[simp] theorem length_declarations (f : Forest) (parent : Option Nat) (n : Nat) :
    (f.declarations parent n).length = f.size := by
  induction f generalizing parent n with
  | nil => rfl
  | message name fields nested rest ihn ihr => simp [declarations, size, ihn, ihr]; omega
  | enumeration name items rest ih => simp [declarations, size, ih]; omega

/-- A forest after another is numbered from where the other ends. -/
theorem numbers_append (f g : Forest) (n : Nat) :
    (f ++ g).numbers n = f.numbers n ++ g.numbers (n + f.size) := by
  induction f generalizing n with
  | nil => rfl
  | message name fields nested rest _ ih =>
    simp only [message_append, numbers, size, ih, List.cons_append]
    congr 3; omega
  | enumeration name items rest ih =>
    simp only [enumeration_append, numbers, size, ih, List.cons_append]
    congr 3; omega

/-- The second forest is numbered from where the first ends. -/
theorem declarations_append (f g : Forest) (parent : Option Nat) (n : Nat) :
    (f ++ g).declarations parent n =
      f.declarations parent n ++ g.declarations parent (n + f.size) := by
  induction f generalizing n with
  | nil => rfl
  | message name fields nested rest _ ih =>
    simp only [message_append, declarations, size, ih, List.cons_append, List.append_assoc]
    congr 4; omega
  | enumeration name items rest ih =>
    simp only [enumeration_append, declarations, size, ih, List.cons_append]
    congr 3; omega

/-- Numbering goes up from the number of the first declaration. -/
theorem le_of_mem_numbers {f : Forest} {n id : Nat} (h : id ∈ f.numbers n) : n ≤ id := by
  induction f generalizing n with
  | nil => simp [numbers] at h
  | message name fields nested rest _ ih =>
    rcases List.mem_cons.1 h with rfl | h
    · exact Nat.le_refl _
    · have := ih h
      omega
  | enumeration name items rest ih =>
    rcases List.mem_cons.1 h with rfl | h
    · exact Nat.le_refl _
    · have := ih h
      omega

/-- Numbering ends where the declarations do. -/
theorem lt_of_mem_numbers {f : Forest} {n id : Nat} (h : id ∈ f.numbers n) : id < n + f.size := by
  induction f generalizing n with
  | nil => simp [numbers] at h
  | message name fields nested rest _ ih =>
    rw [size]
    rcases List.mem_cons.1 h with rfl | h
    · omega
    · have := ih h
      omega
  | enumeration name items rest ih =>
    rw [size]
    rcases List.mem_cons.1 h with rfl | h
    · omega
    · have := ih h
      omega

end Forest

/-- A package name and the declarations at file scope. -/
structure Document where
  package : Option String
  roots : Forest
deriving DecidableEq

/-- The schema of a document, its declarations numbered from zero. -/
def Document.toSchema (d : Document) : Schema :=
  ⟨d.package, d.roots.numbers 0, d.roots.declarations none 0⟩

end SwiftWrap
