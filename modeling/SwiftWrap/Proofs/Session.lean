import SwiftWrap.Proofs.Extension
import SwiftWrap.Proofs.Grounded

/-! Traversals of schemas under edits.

In a grounded schema every way up and down ends, and no link is passed over on it: the
traversals are those that follow all links (`Schema.FollowsLinks`). They stay among the
declarations that are there (`StaysInside`), and nothing depends on what would stand behind the
last of these: ways, searches, linking, and both kinds of text are the same whatever is put
there (`Unaware`). So no number outside the schema is ever looked up.

`Reached.traversals_end` says all of this of every schema that comes about by edits. -/
namespace SwiftWrap
namespace Schema

/-- One declaration lists another as its child. -/
def Lists (s : Schema) (id child : Nat) : Prop := child ∈ s.viewAt id [] Declaration.children

/-- Ways up and down end, and the traversals follow every link on them. -/
structure FollowsLinks (s : Schema) : Prop where
  up : WellFounded s.IsParent
  down : WellFounded (flip s.Lists)
  enclosing : ∀ id, s.enclosing id = match s.parentOf id with
    | none => []
    | some parent => parent :: s.enclosing parent
  collect : ∀ {α : Type} (node : Nat → Declaration → List α → List α) {id d},
    s.get? id = some d → s.collect node id = node id d (d.children.flatMap (s.collect node))

/-- Whatever is met is a declaration of the schema. -/
structure StaysInside (s : Schema) : Prop where
  enclosing : ∀ id, ∀ a ∈ s.enclosing id, s.Has a
  below : ∀ id, ∀ c ∈ s.below id, s.Has c
  listed : ∀ id ∈ s.listed, s.Has id
  tiers : ∀ id, ∀ tier ∈ s.tiers id, ∀ c ∈ tier, s.Has c
  found : ∀ {id name target}, s.resolve id name = .found target → s.Has target
  ambiguous : ∀ {id name candidates}, s.resolve id name = .ambiguous candidates →
    ∀ c ∈ candidates, s.Has c

/-- The schema with declarations behind its own, which none of its own knows of. -/
def padded (s : Schema) (more : List Declaration) : Schema :=
  { s with declarations := s.declarations ++ more }

/-- What stands behind the last declaration makes no difference. -/
structure Unaware (s : Schema) (more : List Declaration) : Prop where
  enclosing : ∀ {id}, s.Has id → (s.padded more).enclosing id = s.enclosing id
  below : ∀ {id}, s.Has id → (s.padded more).below id = s.below id
  listed : (s.padded more).listed = s.listed
  nameChain : ∀ {id}, s.Has id → (s.padded more).nameChain id = s.nameChain id
  tiers : ∀ {id}, s.Has id → (s.padded more).tiers id = s.tiers id
  resolve : ∀ {id}, s.Has id → ∀ name, (s.padded more).resolve id name = s.resolve id name
  link : ∀ p, (s.padded more).link p = ⟨(s.link p).schema.padded more, (s.link p).problem⟩
  text : (s.padded more).text = s.text
  code : Swift.code (s.padded more) = Swift.code s

/-! ### Ways up and down -/

namespace Grounded
variable {s : Schema} (hs : s.Grounded)
include hs

/-- The parents that are named are there. -/
theorem has_parent {id parent : Nat} (h : s.IsParent parent id) : s.Has parent :=
  Nat.lt_trans (hs.parent_lt h) (has_of_isParent h)

/-- In a schema built by edits, links lead to greater numbers. -/
theorem ascending : s.Ascending where
  up := hs.parent_lt
  down hd hc := hs.parent_lt (hs.child hd _ hc)

/-- So are the children that are listed. -/
theorem has_child {id c : Nat} {d : Declaration} (hd : s.get? id = some d) (hc : c ∈ d.children) :
    s.Has c :=
  has_of_isParent (hs.child hd c hc)

/-- Numbers go down on the way up, and on the way down they go up to the last. -/
theorem followsLinks : s.FollowsLinks where
  up := Subrelation.wf hs.parent_lt Nat.lt_wfRel.wf
  down := by
    refine Subrelation.wf ?_ (measure fun id => s.declarations.length - id).wf
    intro c id hlists
    cases hd : s.get? id with
    | none => simp [flip, Lists, viewAt, hd] at hlists
    | some d =>
      have hc : c ∈ d.children := by rwa [flip, Lists, viewAt_of_get? hd] at hlists
      have hlt := hs.ascending.down hd hc
      have hin : c < s.declarations.length := hs.has_child hd hc
      show s.declarations.length - c < s.declarations.length - id
      omega
  enclosing := hs.ascending.enclosing_eq
  collect node _ _ := hs.ascending.collect_eq

/-! ### Inside the schema -/

/-- What is around a declaration is in the schema. -/
theorem has_enclosing {id a : Nat} (h : a ∈ s.enclosing id) : s.Has a := by
  induction id using Nat.strongRecOn with
  | _ id ih =>
    rw [hs.ascending.enclosing_eq] at h
    cases hparent : s.parentOf id with
    | none => simp [hparent] at h
    | some parent =>
      rw [hparent] at h
      rcases List.mem_cons.1 h with rfl | h
      · exact hs.has_parent hparent
      · exact ih parent (hs.parent_lt hparent) h

/-- So is what lies below one. -/
theorem has_subtree {id c : Nat} (hid : s.Has id) (h : c ∈ s.subtree id) : s.Has c := by
  rcases mem_subtree_cases h with rfl | ⟨p, d, hd, hc, -⟩
  · exact hid
  · exact hs.has_child hd hc

theorem has_below {id c : Nat} (h : c ∈ s.below id) : s.Has c := by
  cases hd : s.get? id with
  | none =>
    rw [below, subtree, collect_of_none hd] at h
    cases h
  | some d => exact hs.has_subtree (lt_of_get? hd) (List.mem_of_mem_tail h)

/-- And so is what is listed beside one, whether the declaration itself is there or not. -/
theorem has_beside {id c : Nat} (h : c ∈ s.beside id) : s.Has c := by
  rw [beside_eq] at h
  cases hparent : s.parentOf id with
  | none =>
    rw [hparent] at h
    exact (hs.root c h).1
  | some parent =>
    obtain ⟨d, hd⟩ := exists_get? (hs.has_parent hparent)
    simp only [hparent, viewAt_of_get? hd] at h
    exact hs.has_child hd h

/-- So no candidate for a name is outside the schema. -/
theorem has_tiers {id c : Nat} {tier : List Nat} (htier : tier ∈ s.tiers id) (h : c ∈ tier) :
    s.Has c := by
  simp only [tiers, List.mem_cons, List.mem_map] at htier
  rcases htier with rfl | rfl | ⟨a, ha, rfl⟩
  · exact hs.has_below h
  · exact hs.has_beside h
  · rcases List.mem_cons.1 h with rfl | h
    · exact hs.has_enclosing ha
    · exact hs.has_beside (List.mem_of_mem_filter h)

end Grounded

/-- No traversal leaves the schema. -/
theorem Grounded.staysInside {s : Schema} (hs : s.Grounded) : s.StaysInside where
  enclosing _ _ := hs.has_enclosing
  below _ _ := hs.has_below
  listed id hid := by
    obtain ⟨root, hroot, hid⟩ := List.mem_flatMap.1 hid
    exact hs.has_subtree (hs.root root hroot).1 hid
  tiers _ _ htier _ := hs.has_tiers htier
  found h := by
    obtain ⟨tier, htier, hmem⟩ := mem_of_firstMatch_found h
    exact hs.has_tiers htier (List.mem_of_mem_filter hmem)
  ambiguous h c hc := by
    obtain ⟨tier, htier, rfl⟩ := exists_of_firstMatch_ambiguous h
    exact hs.has_tiers htier (List.mem_of_mem_filter hc)

/-! ### Parents first -/

/-- What stands in a row of ways stands in one of them, behind what is before it there. -/
theorem exists_of_flatMap_eq {f : α → List β} {xs : List α} {before after : List β} {b : β}
    (h : xs.flatMap f = before ++ b :: after) :
    ∃ x ∈ xs, ∃ front back, f x = front ++ b :: back ∧ front ⊆ before := by
  induction xs generalizing before with
  | nil => simp at h
  | cons x rest ih =>
    rw [List.flatMap_cons] at h
    rcases List.append_eq_append_iff.1 h with ⟨front, hbefore, hrest⟩ | ⟨back, hfirst, hrest⟩
    · obtain ⟨y, hy, inner, back, hinner, hsubset⟩ := ih hrest
      refine ⟨y, List.mem_cons_of_mem x hy, inner, back, hinner, ?_⟩
      rw [hbefore]
      exact List.subset_append_of_subset_right _ hsubset
    · cases back with
      | nil =>
        have hnil : rest.flatMap f = [] ++ b :: after := hrest.symm
        obtain ⟨y, hy, inner, back, hinner, hsubset⟩ := ih hnil
        exact ⟨y, List.mem_cons_of_mem x hy, inner, back, hinner, fun z hz => nomatch hsubset hz⟩
      | cons c back =>
        obtain ⟨rfl, -⟩ := List.cons.inj hrest
        exact ⟨x, List.mem_cons_self, before, back, hfirst, List.Subset.refl _⟩

namespace Grounded
variable {s : Schema} (hs : s.Grounded)
include hs

/-- On a way down a declaration is its start, or stands behind its parent. -/
theorem subtree_parent_first {id x parent : Nat} {before after : List Nat}
    (h : s.subtree id = before ++ x :: after) (hparent : s.IsParent parent x) :
    x = id ∨ parent ∈ before := by
  induction id using s.downward_induction generalizing before after with
  | step id ih =>
    cases hd : s.get? id with
    | none =>
      rw [subtree, collect_of_none hd] at h
      simp at h
    | some d =>
      rw [subtree, hs.ascending.collect_eq hd] at h
      cases before with
      | nil => exact .inl (List.cons.inj h).1.symm
      | cons y before =>
        obtain ⟨rfl, hrest⟩ := List.cons.inj h
        obtain ⟨c, hc, front, back, hway, hsubset⟩ := exists_of_flatMap_eq hrest
        refine .inr (List.mem_cons.2 ?_)
        rcases ih (lt_of_get? hd) c (hs.ascending.down hd hc) hway with rfl | hfront
        · exact .inl (Option.some.inj (hparent.symm.trans (hs.child hd x hc)))
        · exact .inr (hsubset hfront)

/-- **Parents come first**, also where a declaration is listed twice. -/
theorem listed_parent_first {id parent : Nat} {before after : List Nat}
    (h : s.listed = before ++ id :: after) (hparent : s.IsParent parent id) : parent ∈ before := by
  obtain ⟨root, hroot, front, back, hway, hsubset⟩ := exists_of_flatMap_eq h
  rcases hs.subtree_parent_first hway hparent with rfl | hfront
  · have hnone := (hs.root id hroot).2
    rw [IsParent, hnone] at hparent
    cases hparent
  · exact hsubset hfront

end Grounded

/-! ### Behind the last declaration -/

section Padded
variable {s : Schema} {id : Nat} (h : s.Has id) (more : List Declaration)
include h

/-- More declarations at the end change none of those before them. -/
theorem get?_padded : (s.padded more).get? id = s.get? id := List.getElem?_append_left h

theorem viewAt_padded (otherwise : α) (view : Declaration → α) :
    (s.padded more).viewAt id otherwise view = s.viewAt id otherwise view := by
  unfold viewAt
  rw [get?_padded h]

/-- A change to a declaration can be made before or after others are added. -/
theorem modify_padded (change : Declaration → Declaration) :
    (s.padded more).modify id change = (s.modify id change).padded more := by
  have hmodify : (s.declarations ++ more).modify id change =
      s.declarations.modify id change ++ more := by
    apply List.ext_getElem?
    intro k
    rw [List.getElem?_modify, List.getElem?_append, List.getElem?_append, List.length_modify,
      List.getElem?_modify]
    by_cases hk : k < s.declarations.length
    · rw [if_pos hk, if_pos hk]
    · have hne : id ≠ k := by
        rintro rfl
        exact hk h
      simp [hk, hne]
  unfold modify padded
  rw [hmodify]

end Padded

/-- Only what a change does to the declaration at its place matters. -/
theorem modify_congr {s : Schema} {id : Nat} {change change' : Declaration → Declaration}
    (h : ∀ d, s.get? id = some d → change d = change' d) :
    s.modify id change = s.modify id change' := by
  have hmodify : s.declarations.modify id change = s.declarations.modify id change' := by
    apply List.ext_getElem?
    intro k
    rw [List.getElem?_modify, List.getElem?_modify]
    by_cases hk : id = k
    · subst hk
      cases hd : s.declarations[id]? with
      | none => rfl
      | some d => simp [h d hd]
    · simp [hk]
  unfold modify
  rw [hmodify]

namespace Grounded
variable {s : Schema} (hs : s.Grounded) (more : List Declaration)
include hs

/-- The way up from a declaration never meets those that were added. -/
theorem enclosing_padded {id : Nat} (h : s.Has id) :
    (s.padded more).enclosing id = s.enclosing id := by
  induction id using Nat.strongRecOn with
  | _ id ih =>
    rw [Schema.enclosing, Schema.enclosing, viewAt_padded h]
    cases hparent : s.viewAt id none Declaration.parent with
    | none => rfl
    | some parent => simp only [ih parent (hs.parent_lt hparent) (hs.has_parent hparent)]

/-- A way down on which the same is made of every declaration. -/
theorem collect_padded {node node' : Nat → Declaration → List α → List α}
    (hnode : ∀ id d below, s.get? id = some d → node' id d below = node id d below) {id : Nat}
    (h : s.Has id) : (s.padded more).collect node' id = s.collect node id := by
  induction id using s.downward_induction with
  | step id ih =>
    obtain ⟨d, hd⟩ := exists_get? h
    rw [collect_of_get? hd, collect_of_get? ((get?_padded h more).trans hd), hnode id d _ hd]
    congr 1
    refine List.flatMap_congr fun c hc => ?_
    rw [if_pos (hs.ascending.down hd hc), if_pos (hs.ascending.down hd hc)]
    exact ih (lt_of_get? hd) c (hs.ascending.down hd hc) (hs.has_child hd hc)

theorem subtree_padded {id : Nat} (h : s.Has id) : (s.padded more).subtree id = s.subtree id :=
  hs.collect_padded more (fun _ _ _ _ => rfl) h

/-- Nor does the way through the schema. -/
theorem listed_padded : (s.padded more).listed = s.listed :=
  List.flatMap_congr fun root hroot => hs.subtree_padded more (hs.root root hroot).1

theorem beside_padded {id : Nat} (h : s.Has id) : (s.padded more).beside id = s.beside id := by
  rw [Schema.beside, Schema.beside, viewAt_padded h]
  cases hparent : s.viewAt id none Declaration.parent with
  | none => rfl
  | some parent => exact viewAt_padded (hs.has_parent hparent) more ..

theorem nameChain_padded {id : Nat} (h : s.Has id) :
    (s.padded more).nameChain id = s.nameChain id := by
  rw [Schema.nameChain, Schema.nameChain, hs.enclosing_padded more h]
  congr 1
  refine List.map_congr_left fun a ha => ?_
  rcases List.mem_cons.1 ha with rfl | ha
  · exact viewAt_padded h more ..
  · exact viewAt_padded (hs.has_enclosing ha) more ..

/-- What is added becomes no candidate for a name. -/
theorem tiers_padded {id : Nat} (h : s.Has id) : (s.padded more).tiers id = s.tiers id := by
  simp only [Schema.tiers, Schema.below, hs.subtree_padded more h, hs.beside_padded more h,
    hs.enclosing_padded more h]
  congr 2
  refine List.map_congr_left fun a ha => ?_
  rw [hs.beside_padded more (hs.has_enclosing ha)]

/-- So names refer to what they referred to. -/
theorem resolve_padded {id : Nat} (h : s.Has id) (name : String) :
    (s.padded more).resolve id name = s.resolve id name := by
  rw [Schema.resolve, Schema.resolve, hs.tiers_padded more h]
  refine firstMatch_congr fun tier htier c hc => ?_
  rw [nameOf, viewAt_padded (hs.has_tiers htier hc), nameOf]

/-! ### Linking -/

theorem linkType_padded {id : Nat} (h : s.Has id) (f : Field) :
    (s.padded more).linkType id f = s.linkType id f := by
  unfold Schema.linkType
  rw [hs.resolve_padded more h, hs.nameChain_padded more h]
  split
  · cases hresolve : s.resolve id f.typeName with
    | found target =>
      simp only [refTo, viewAt_padded (hs.staysInside.found hresolve)]
    | ambiguous candidates =>
      have hchains : candidates.map (s.padded more).nameChain = candidates.map s.nameChain :=
        List.map_congr_left fun c hc =>
          hs.nameChain_padded more (hs.staysInside.ambiguous hresolve c hc)
      simp only [hchains]
    | missing => rfl
  · rfl

/-- And fields get the types that they got, or the same problem. -/
theorem linkFields_padded {id : Nat} (h : s.Has id) (fields : List Field) :
    (s.padded more).linkFields id fields = s.linkFields id fields := by
  induction fields with
  | nil => rfl
  | cons f rest ih => rw [Schema.linkFields, Schema.linkFields, hs.linkType_padded more h, ih]

theorem assignNames_padded (p : Prefixes) {id : Nat} (h : s.Has id) :
    (s.padded more).assignNames p id = (s.assignNames p id).padded more := by
  unfold Schema.assignNames
  rw [modify_padded h, hs.nameChain_padded more h]
  congr 1
  refine modify_congr fun d hd => ?_
  have hpath (wrapper : String) :
      (s.padded more).pathUnder d.parent wrapper = s.pathUnder d.parent wrapper := by
    refine pathUnder_congr fun q hq => ?_
    exact viewAt_padded (hs.has_parent (parentOf_eq_some_iff.2 ⟨d, hd, hq⟩)) more ..
  simp only [hpath]

end Grounded

theorem has_assignNames {s : Schema} {p : Prefixes} {id k : Nat} :
    (s.assignNames p id).Has k ↔ s.Has k := has_modify

/-- Naming some declarations and adding others can change places. -/
theorem Grounded.foldl_assignNames_padded {s : Schema} (hs : s.Grounded) (more : List Declaration)
    (p : Prefixes) {ids : List Nat} (h : ∀ id ∈ ids, s.Has id) :
    ids.foldl (Schema.assignNames p) (s.padded more) =
      (ids.foldl (Schema.assignNames p) s).padded more := by
  induction ids generalizing s with
  | nil => rfl
  | cons id rest ih =>
    obtain ⟨hid, hrest⟩ := List.forall_mem_cons.1 h
    rw [List.foldl_cons, List.foldl_cons, hs.assignNames_padded more p hid]
    exact ih (hs.assignNames p id) fun k hk => has_assignNames.2 (hrest k hk)

/-- So can resolving types, up to the same problem. -/
theorem Grounded.linkAll_padded {s : Schema} (hs : s.Grounded) (more : List Declaration)
    {ids : List Nat} (h : ∀ id ∈ ids, s.Has id) :
    (s.padded more).linkAll ids =
      ⟨(s.linkAll ids).schema.padded more, (s.linkAll ids).problem⟩ := by
  induction ids generalizing s with
  | nil => rfl
  | cons id rest ih =>
    obtain ⟨hid, hrest⟩ := List.forall_mem_cons.1 h
    have hfields : (s.padded more).fieldsOf id = s.fieldsOf id := viewAt_padded hid more ..
    rw [linkAll_cons, linkAll_cons, hfields, hs.linkFields_padded more hid]
    cases hlink : s.linkFields id (s.fieldsOf id) with
    | error problem => rfl
    | ok fields =>
      have hpadded : (s.padded more).withFields id fields = (s.withFields id fields).padded more :=
        modify_padded hid more _
      simp only [hpadded]
      exact ih (hs.withFields hlink) fun k hk => has_modify.2 (hrest k hk)

theorem has_of_unlinked_eq {s t : Schema} (h : t.unlinked = s.unlinked) {id : Nat} :
    t.Has id ↔ s.Has id := by
  have hlength := congrArg (·.declarations.length) h
  simp only [unlinked, List.length_map] at hlength
  unfold Has
  rw [hlength]

/-- **Linking passes by what is added at the end**, and keeps it. -/
theorem Grounded.link_padded {s : Schema} (hs : s.Grounded) (more : List Declaration)
    (p : Prefixes) :
    (s.padded more).link p = ⟨(s.link p).schema.padded more, (s.link p).problem⟩ := by
  have hlisted := hs.staysInside.listed
  have hnames : (s.padded more).withNames p = (s.withNames p).padded more := by
    unfold Schema.withNames
    rw [hs.listed_padded more]
    exact hs.foldl_assignNames_padded more p hlisted
  unfold Schema.link
  rw [hs.listed_padded more, hnames]
  exact (hs.withNames p).linkAll_padded more fun id hid =>
    (has_of_unlinked_eq (unlinked_withNames s p)).2 (hlisted id hid)

end Schema

/-! ### Generated code -/

/-- Two schemas from which the same is made of a field. -/
structure Field.SameIn (s t : Schema) (f : Field) : Prop where
  elementType : f.elementType t = f.elementType s
  wireType : f.wireType t = f.wireType s
  wrapped : ∀ value, Swift.wrapped t f value = Swift.wrapped s f value
  unwrapped : ∀ value, Swift.unwrapped t f value = Swift.unwrapped s f value

/-- Of a schema, only what a field's type refers to is looked at. -/
theorem Field.sameIn_of_target {s t : Schema} {f : Field}
    (hpath : ∀ target ∈ f.type.target?, t.pathOf target = s.pathOf target)
    (hwire : ∀ target ∈ f.type.target?, t.wireOf target = s.wireOf target)
    (hconverter : ∀ target ∈ f.type.target?, ∀ suffix,
      Swift.converterRef t target suffix = Swift.converterRef s target suffix) : f.SameIn s t := by
  obtain ⟨name, index, cardinality, typeName, default, type⟩ := f
  cases type with
  | scalar type => exact ⟨rfl, rfl, fun _ => rfl, fun _ => rfl⟩
  | unresolved => exact ⟨rfl, rfl, fun _ => rfl, fun _ => rfl⟩
  | enumeration target =>
    refine ⟨hpath target rfl, hwire target rfl, fun value => ?_, fun value => ?_⟩
    · exact congrArg (Swift.call · value) (hconverter target rfl "Wrap")
    · exact congrArg (Swift.call · value) (hconverter target rfl "Unwrap")
  | message target =>
    refine ⟨hpath target rfl, hwire target rfl, fun value => ?_, fun _ => rfl⟩
    exact congrArg (fun path => "try " ++ Swift.call (path ++ ".parseProto") value)
      (hpath target rfl)

namespace Field.SameIn
variable {s t : Schema} {f : Field} (h : f.SameIn s t)
include h

/-- The type of a property is made from what is known of its target. -/
theorem propertyType : f.propertyType t = f.propertyType s := by
  simp only [Field.propertyType, h.elementType]

theorem property : Swift.property t f = Swift.property s f := by
  rw [Swift.property, h.propertyType, Swift.property]

/-- A field that is the same in two schemas is read the same way. -/
theorem readField : Swift.readField t f = Swift.readField s f := by
  simp only [Swift.readField, h.elementType, h.propertyType, h.wrapped]

/-- And it is handed to the builder the same way. -/
theorem buildField : Swift.buildField t f = Swift.buildField s f := by
  simp only [Swift.buildField, h.wireType, h.unwrapped]

end Field.SameIn

namespace Swift
variable {s t : Schema}

theorem properties_congr {fields : List Field} (h : ∀ f ∈ fields, f.SameIn s t) :
    properties t fields = properties s fields := by
  unfold properties
  congr 1
  exact List.map_congr_left fun f hf => by rw [(h f hf).property]

theorem initializer_congr {fields : List Field} (h : ∀ f ∈ fields, f.SameIn s t) :
    initializer t fields = initializer s fields := by
  have hparameters : (fields.map fun f => s!"{escaped f.name}: {f.propertyType t}") =
      fields.map fun f => s!"{escaped f.name}: {f.propertyType s}" :=
    List.map_congr_left fun f hf => by rw [(h f hf).propertyType]
  unfold initializer
  rw [hparameters]

/-- Messages are read the same way where their fields and their errors are the same. -/
theorem parsers_congr {id : Nat} {d : Declaration} (h : ∀ f ∈ d.fields, f.SameIn s t)
    (herror : errorRef t id = errorRef s id) : parsers t id d = parsers s id d := by
  have hreads : (d.fields.flatMap fun f =>
        requiredGuard (errorRef t id) d f ++ readField t f ++ [.blank]) =
      d.fields.flatMap fun f => requiredGuard (errorRef s id) d f ++ readField s f ++ [.blank] :=
    List.flatMap_congr fun f hf => by rw [herror, (h f hf).readField]
  unfold parsers
  rw [hreads]

theorem builder_congr {d : Declaration} (h : ∀ f ∈ d.fields, f.SameIn s t) :
    builder t d = builder s d := by
  have hbuilds : (d.fields.flatMap fun f => buildField t f ++ [.blank]) =
      d.fields.flatMap fun f => buildField s f ++ [.blank] :=
    List.flatMap_congr fun f hf => by rw [(h f hf).buildField]
  unfold builder
  rw [hbuilds]

/-- A declaration is written the same if its fields are, and its error type. -/
theorem declarationScript_congr {id : Nat} {d : Declaration} (h : ∀ f ∈ d.fields, f.SameIn s t)
    (herror : errorRef t id = errorRef s id) (nested : Script) :
    declarationScript t id d nested = declarationScript s id d nested := by
  unfold declarationScript
  split
  · unfold messageScript
    rw [properties_congr h, initializer_congr h, parsers_congr h herror, builder_congr h]
  · rfl

end Swift

namespace Schema
namespace Grounded
variable {s : Schema} (hs : s.Grounded) (more : List Declaration)
include hs

/-- The converter of an enum is found where it was. -/
theorem converterRef_padded {id : Nat} (h : s.Has id) (suffix : String) :
    Swift.converterRef (s.padded more) id suffix = Swift.converterRef s id suffix := by
  obtain ⟨d, hd⟩ := exists_get? h
  rw [Swift.converterRef, viewAt_padded h, viewAt_of_get? hd, Swift.converterRef, viewAt_of_get? hd]
  cases hparent : d.parent with
  | none => rfl
  | some parent =>
    have hin := hs.has_parent (parentOf_eq_some_iff.2 ⟨d, hd, hparent⟩)
    simp only [pathOf, viewAt_padded hin]

theorem errorRef_padded {id : Nat} (h : s.Has id) :
    Swift.errorRef (s.padded more) id = Swift.errorRef s id := by
  rw [Swift.errorRef, hs.enclosing_padded more h, Swift.errorRef]
  refine viewAt_padded ?_ more ..
  cases htop : (s.enclosing id).getLast? with
  | none => exact h
  | some top => exact hs.has_enclosing (List.mem_of_getLast? htop)

/-- A field keeps the code for its type, since what it refers to is in the schema. -/
theorem sameIn_padded {f : Field} (h : s.Knows f) : f.SameIn s (s.padded more) := by
  refine Field.sameIn_of_target ?_ ?_ ?_
  · exact fun target ht => viewAt_padded (h target ht) more ..
  · exact fun target ht => viewAt_padded (h target ht) more ..
  · exact fun target ht suffix => hs.converterRef_padded more (h target ht) suffix

/-- What is added at the end leaves no trace in generated code. -/
theorem code_padded : Swift.code (s.padded more) = Swift.code s := by
  have hscript : Swift.script (s.padded more) = Swift.script s := by
    unfold Swift.script
    congr 1
    refine List.flatMap_congr fun root hroot => ?_
    refine hs.collect_padded more (fun id d below hd => ?_) (hs.root root hroot).1
    exact Swift.declarationScript_congr (fun f hf => hs.sameIn_padded more (hs.target hd f hf))
      (hs.errorRef_padded more (lt_of_get? hd)) below
  rw [Swift.code, hscript, Swift.code]

/-- Nor in the fixed form. -/
theorem text_padded : (s.padded more).text = s.text := by
  have hscript : (s.padded more).script = s.script := by
    unfold Schema.script
    congr 1
    refine List.flatMap_congr fun root hroot => ?_
    exact congrArg _ (hs.collect_padded more (fun _ _ _ _ => rfl) (hs.root root hroot).1)
  rw [Schema.text, hscript, Schema.text]

/-- A schema built by edits is unaware of whatever is put behind it. -/
theorem unaware : s.Unaware more where
  enclosing := hs.enclosing_padded more
  below h := by rw [Schema.below, hs.subtree_padded more h, Schema.below]
  listed := hs.listed_padded more
  nameChain := hs.nameChain_padded more
  tiers := hs.tiers_padded more
  resolve := hs.resolve_padded more
  link := hs.link_padded more
  text := hs.text_padded more
  code := hs.code_padded more

end Grounded

/-- **Edits keep the links well-founded, so every traversal ends.** However a schema comes about:
parents have smaller numbers than their children, what a declaration lists has it as its
parent, and what the file scope lists has none. So the traversals follow every link to its
end, meet nothing but declarations of the schema, look up no others, and come to a parent before
they come to its children. -/
theorem Reached.traversals_end {s : Schema} (h : s.Reached) :
    s.Grounded ∧ s.FollowsLinks ∧ s.StaysInside ∧ (∀ more, s.Unaware more) ∧
      ∀ before id after parent, s.listed = before ++ id :: after → s.IsParent parent id →
        parent ∈ before :=
  have hs := h.grounded
  ⟨hs, hs.followsLinks, hs.staysInside, hs.unaware, fun _ _ _ _ => hs.listed_parent_first⟩

/-- A message with an enum in it that is listed twice, and that is itself a parent; a message that
is not listed; and a field whose type was not found and is then set by hand. -/
def tangled : Schema :=
  ((((((((((empty.declare none "A" .message).declare (some 0) "E" .enumeration).declare (some 1)
    "X" .message).adopt 2).adopt 1).adopt 0).adopt 1).declare none "U" .message).addField 0
    (.declare none "Nowhere" "f" 1 none)).link ⟨"W", "P"⟩).schema.setFieldType 0 0 (.message 3)

theorem reached_tangled : tangled.Reached := by
  have hempty : empty.Reached := .refl
  refine hempty.tail (.declare none "A" .message nofun) |>.tail
    (.declare (some 0) "E" .enumeration ?_) |>.tail (.declare (some 1) "X" .message ?_) |>.tail
    (.adopt 2) |>.tail (.adopt 1) |>.tail (.adopt 0) |>.tail (.adopt 1) |>.tail
    (.declare none "U" .message nofun) |>.tail (.addField 0 _ ?_) |>.tail
    (.link ⟨"W", "P"⟩) |>.tail (.setFieldType 0 0 (.message 3) ?_)
  · exact fun _ h => Option.mem_some_iff.1 h ▸ (by decide)
  · exact fun _ h => Option.mem_some_iff.1 h ▸ (by decide)
  · exact fun _ h => nomatch h
  · exact fun _ h => Option.mem_some_iff.1 h ▸ (by decide +kernel)

theorem Reached.traversals_end_tangled :
    tangled.Reached ∧ tangled.listed = [0, 1, 1] ∧ tangled.parentOf 1 = some 0 ∧
      tangled.Grounded ∧ tangled.FollowsLinks ∧ tangled.StaysInside ∧
      (∀ more, tangled.Unaware more) ∧ 0 ∈ [0, 1] := by
  have hlisted : tangled.listed = [0, 1] ++ 1 :: [] := by decide +kernel
  have hparent : tangled.parentOf 1 = some 0 := by decide +kernel
  obtain ⟨hgrounded, hfollows, hinside, hunaware, hfirst⟩ := Reached.traversals_end reached_tangled
  exact ⟨reached_tangled, hlisted, hparent, hgrounded, hfollows, hinside, hunaware,
    hfirst [0, 1] 1 [] 0 hlisted hparent⟩

end Schema
end SwiftWrap
