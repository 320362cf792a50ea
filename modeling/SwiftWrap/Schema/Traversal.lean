import SwiftWrap.Schema.Basic

/-! Ways through a schema, and looking a type name up along them.

Links point forward: a child has a greater number than its parent. Every traversal follows
only such links, so it ends on any schema at all, and on a schema built by edits it
follows every link there is. All ways down are instances of one, `collect`.

The candidates for a name come in tiers: everything below the declaration that uses it, then what
is listed beside it, then for each declaration around it that declaration and what is listed
beside it. The first tier that holds the name decides, and two matches in it are ambiguous. -/
namespace SwiftWrap

namespace Schema

/-- What a declaration and everything below it yield, from what `node` makes of a
declaration and the yield of its children. -/
def collect (s : Schema) (node : Nat → Declaration → List α → List α) (id : Nat) : List α :=
  match _found : s.declarations[id]? with
  | none => []
  | some d =>
    node id d (d.children.flatMap fun child =>
      if _below : id < child then s.collect node child else [])
termination_by s.declarations.length - id
decreasing_by
  have : id < s.declarations.length := (List.getElem?_eq_some_iff.1 _found).1
  omega

/-- A declaration and everything below it, parents first, in the order of the source. -/
def subtree (s : Schema) (id : Nat) : List Nat :=
  s.collect (fun id _ below => id :: below) id

/-- Everything below a declaration. -/
def below (s : Schema) (id : Nat) : List Nat := (s.subtree id).tail

/-- All declarations that are listed, parents first, in the order of the source. -/
def listed (s : Schema) : List Nat := s.roots.flatMap s.subtree

/-- The declarations around a declaration, the nearest first. -/
def enclosing (s : Schema) (id : Nat) : List Nat :=
  match s.viewAt id none Declaration.parent with
  | none => []
  | some parent => if parent < id then parent :: s.enclosing parent else []
termination_by id

/-- What is around a declaration has a smaller number. -/
theorem lt_of_mem_enclosing {s : Schema} {id around : Nat} (h : around ∈ s.enclosing id) :
    around < id := by
  induction id using Nat.strongRecOn with
  | _ id ih =>
    rw [enclosing] at h
    split at h
    · simp at h
    · split at h
      · next parent _ hlt =>
        rcases List.mem_cons.1 h with rfl | h
        · exact hlt
        · exact Nat.lt_trans (ih parent hlt h) hlt
      · simp at h

/-- The declarations listed beside a declaration, itself included. -/
def beside (s : Schema) (id : Nat) : List Nat :=
  match s.viewAt id none Declaration.parent with
  | none => s.roots
  | some parent => s.viewAt parent [] Declaration.children

/-- The names from the outermost ancestor down to the declaration itself. -/
def nameChain (s : Schema) (id : Nat) : List String :=
  ((id :: s.enclosing id).map s.nameOf).reverse

end Schema

/-! ### Resolution -/

/-- What a name refers to. -/
inductive Resolution where
  | found (id : Nat)
  | ambiguous (candidates : List Nat)
  | missing
deriving DecidableEq

namespace Schema

/-- The candidates for a name used inside a declaration, the nearest tier first. -/
def tiers (s : Schema) (scope : Nat) : List (List Nat) :=
  s.below scope :: s.beside scope ::
    (s.enclosing scope).map fun a => a :: (s.beside a).filter (· ≠ a)

/-- The verdict of the first tier that holds a match. -/
def firstMatch (isMatch : Nat → Bool) : List (List Nat) → Resolution
  | [] => .missing
  | tier :: rest =>
    match tier.filter isMatch with
    | [] => firstMatch isMatch rest
    | [id] => .found id
    | candidates => .ambiguous candidates

/-- What a name refers to inside a declaration. -/
def resolve (s : Schema) (scope : Nat) (name : String) : Resolution :=
  firstMatch (s.nameOf · == name) (s.tiers scope)

end Schema

end SwiftWrap
