import SwiftWrap.Output
import SwiftWrap.Proofs.Emission
import SwiftWrap.Proofs.Preorder

/-! Generated code and the names that it refers to.

References are paths that were made from the names around a declaration when the schema was
linked; what they refer to stands where the writer put it. `Output.wrappers_agree` says that
the two agree for every text that can be linked and whose names are words: read back by its
tabs, the code has one heading for each declaration, at the declaration's path, and whatever
its lines refer to by a path is there (`Swift.Agrees`).

What the code tells is found by one induction over the forest (`Swift.marks_code`). The rest
is about the marks of single declarations. -/
namespace SwiftWrap
open Text Code

namespace Schema.Linked
variable {s : Schema} {p : Prefixes} (h : s.Linked p) (hw : s.Worded p)

/-! ### Names -/

theorem dotted_ne_empty {chain : List String} {last : String} (hlast : last ≠ "") :
    dotted (chain ++ [last]) ≠ "" := by
  cases chain with
  | nil => simpa [dotted] using hlast
  | cons first rest =>
    rw [dotted_concat (List.cons_ne_nil first rest)]
    simp

include h hw

theorem wire_ne_empty {id : Nat} {d : Declaration} (hd : s.get? id = some d) :
    d.names.wire ≠ "" := by
  have hname : s.nameOf id ≠ "" := by
    rw [nameOf, viewAt_of_get? hd]
    exact ne_empty_of_run (hw.names d (List.mem_of_getElem? hd))
  have hchain : ∀ chain : List String, ∃ last, last ≠ "" ∧
      wireChain d.kind (chain ++ [s.nameOf id]) = chain ++ [last] := by
    intro chain
    induction chain with
    | nil =>
      refine ⟨_, ?_, rfl⟩
      split
      · simp [renamedEnumSuffix]
      · exact hname
    | cons name rest ih =>
      obtain ⟨last, hlast, heq⟩ := ih
      refine ⟨last, hlast, ?_⟩
      rw [List.cons_append, List.cons_append, ← heq]
      cases rest <;> rfl
  obtain ⟨last, hlast, heq⟩ := hchain ((s.enclosing id).map s.nameOf).reverse
  rw [h.names id d hd]
  simp only [namesFor, Prefixes.wireName, nameChain, List.map_cons, List.reverse_cons, heq]
  split
  · exact dotted_ne_empty hlast
  · simp [toString]

/-- All names of a linked declaration can stand in code. -/
theorem spelled {id : Nat} {d : Declaration} (hd : s.get? id = some d) : d.Spelled where
  wrapper := allOf_wrapper h hw hd
  wrapper_ne := wrapper_ne_empty h hw hd
  path := allOf_path h hw hd
  path_ne := path_ne_empty h hw hd
  wire := allOf_wire h hw hd
  wire_ne := wire_ne_empty h hw hd

theorem allOf_pathOf {id : Nat} {d : Declaration} (hd : s.get? id = some d) :
    AllOf isRef (s.pathOf id) := by
  rw [pathOf, viewAt_of_get? hd]
  exact allOf_path h hw hd

theorem allOf_converterRef {target : Nat} {d : Declaration} (hd : s.get? target = some d)
    {suffix : String} (hsuffix : AllOf isLetter suffix) :
    AllOf isRef (Swift.converterRef s target suffix) := by
  have hdot : AllOf isRef "." := by decide
  rw [Swift.converterRef, viewAt_of_get? hd]
  have hwrapper := (allOf_wrapper h hw hd).ref
  cases hparent : d.parent with
  | none => exact allOf_append.2 ⟨hwrapper, hsuffix.ref⟩
  | some parent =>
    obtain ⟨-, e, he⟩ := h.forest.isParent_lt (parentOf_eq_some_iff.2 ⟨d, hd, hparent⟩)
    simp [allOf_pathOf h hw he, hdot, hwrapper, hsuffix.ref]

/-- So can those of its fields. -/
theorem spelled_field {id : Nat} {d : Declaration} (hd : s.get? id = some d) {f : Field}
    (hf : f ∈ d.fields) : f.Spelled s := by
  have hname := h.fieldNames id d hd f hf
  have hsuffix : ∀ suffix ∈ ["Wrap", "Unwrap"], AllOf isLetter suffix := by decide
  have hrefers := h.types id d hd f hf
  have hconverter : ∀ target, f.type = .enumeration target → ∀ suffix ∈ ["Wrap", "Unwrap"],
      AllOf isRef (Swift.converterRef s target suffix) := by
    intro target htype suffix hmem
    cases hrefers with
    | scalar htype' => simp [htype] at htype'
    | message htype' => simp [htype] at htype'
    | enumeration htype' he =>
      obtain rfl : target = _ := by simpa [htype] using htype'
      exact allOf_converterRef h hw he (hsuffix suffix hmem)
  have hscalar : ∀ scalar : Scalar, AllOf isRef scalar.propertyType ∧ scalar.propertyType ≠ "" := by
    intro scalar
    cases scalar <;> decide
  have hpath {target : Nat} {e : Declaration} (he : s.get? target = some e) :
      AllOf isRef (s.pathOf target) ∧ s.pathOf target ≠ "" ∧
        AllOf isRef (s.wireOf target) ∧ s.wireOf target ≠ "" := by
    rw [pathOf, wireOf, viewAt_of_get? he, viewAt_of_get? he]
    exact ⟨allOf_path h hw he, path_ne_empty h hw he, allOf_wire h hw he, wire_ne_empty h hw he⟩
  have htypes : AllOf isRef (f.elementType s) ∧ f.elementType s ≠ "" ∧
      AllOf isRef (f.wireType s) ∧ f.wireType s ≠ "" := by
    unfold Field.wireType Field.elementType
    cases hrefers with
    | scalar htype =>
      rw [htype]
      exact ⟨(hscalar _).1, (hscalar _).2, (hscalar _).1, (hscalar _).2⟩
    | message htype he =>
      rw [htype]
      exact hpath he
    | enumeration htype he =>
      rw [htype]
      exact hpath he
  exact ⟨allOf_isLetter_of_run hname, ne_empty_of_run hname, htypes.1, htypes.2.1, htypes.2.2.1,
    htypes.2.2.2, hconverter⟩

end Schema.Linked

/-! ### Chains of wrappers -/

namespace Schema

/-- The names of the wrappers around a declaration, the outermost first. -/
def chainAround (s : Schema) (id : Nat) : List String := ((s.enclosing id).map s.wrapperOf).reverse

variable {s : Schema}

theorem pathChain_eq_concat {id : Nat} {d : Declaration} (hd : s.get? id = some d) :
    s.pathChain id = s.chainAround id ++ [d.names.wrapper] := by
  have hwrapper : s.wrapperOf id = d.names.wrapper := viewAt_of_get? hd ..
  rw [pathChain, List.map_cons, List.reverse_cons, hwrapper]
  rfl

theorem chainAround_root (hs : s.IsForest) {id : Nat} (h : id ∈ s.roots) : s.chainAround id = [] := by
  obtain ⟨d, hd, hparent⟩ := hs.root id h
  have hnone : s.parentOf id = none := by rw [parentOf, viewAt_of_get? hd, hparent]
  rw [chainAround, hs.ascending.enclosing_eq, hnone]
  rfl

/-- Around a nested wrapper stands the chain of its parent. -/
theorem chainAround_child (hs : s.IsForest) {id child : Nat} (h : s.IsParent id child) :
    s.chainAround child = s.pathChain id := by
  rw [chainAround, hs.ascending.enclosing_eq, h]
  rfl

/-- The outermost declaration around a declaration, or itself. -/
def topOf (s : Schema) (id : Nat) : Nat := (s.enclosing id).getLast?.getD id

/-- The outermost declaration around any other is a root. -/
theorem topOf_mem (hs : s.IsForest) {id : Nat} (h : id < s.declarations.length) :
    s.topOf id ∈ s.roots := by
  induction id using Nat.strongRecOn with
  | _ id ih =>
    obtain ⟨d, hd⟩ := exists_get? h
    have hparent : s.parentOf id = d.parent := viewAt_of_get? hd ..
    rw [topOf, hs.ascending.enclosing_eq]
    cases hp : s.parentOf id with
    | none => exact hs.mem_roots_iff.2 ⟨d, hd, hparent.symm.trans hp⟩
    | some parent =>
      obtain ⟨hlt, e, he⟩ := hs.isParent_lt hp
      have hroot := ih parent hlt (lt_of_get? he)
      rw [topOf] at hroot
      rwa [List.getLast?_cons, Option.getD_some]

/-- The chain of a declaration begins with the wrapper of the outermost one. -/
theorem head?_pathChain (id : Nat) : (s.pathChain id).head? = some (s.wrapperOf (s.topOf id)) := by
  rw [pathChain, List.head?_reverse, List.getLast?_map, topOf, List.getLast?_cons]
  rfl

/-! ### Collecting over a forest -/

/-- What is collected comes from a declaration on the way down. -/
theorem mem_collect_iff (hs : s.IsForest) {node : Nat → Declaration → List α → List α}
    {own : Nat → Declaration → List α}
    (hnode : ∀ id d nested x, x ∈ node id d nested ↔ x ∈ own id d ∨ x ∈ nested) {id : Nat} {x : α} :
    x ∈ s.collect node id ↔ ∃ k ∈ s.subtree id, ∃ d, s.get? k = some d ∧ x ∈ own k d := by
  induction id using s.downward_induction with
  | step id ih =>
    cases hd : s.get? id with
    | none => simp [collect_of_none hd, subtree]
    | some d =>
      have hbelow : ∀ c ∈ d.children, id < c := fun c hc =>
        (hs.isParent_lt ((hs.mem_children_iff hd).1 hc)).1
      rw [hs.ascending.collect_eq hd, subtree, hs.ascending.collect_eq hd, hnode]
      constructor
      · rintro (hx | hx)
        · exact ⟨id, List.mem_cons_self, d, hd, hx⟩
        · obtain ⟨c, hc, hx⟩ := List.mem_flatMap.1 hx
          obtain ⟨k, hk, hown⟩ := (ih (lt_of_get? hd) c (hbelow c hc)).1 hx
          exact ⟨k, List.mem_cons_of_mem _ (List.mem_flatMap_of_mem hc hk), hown⟩
      · rintro ⟨k, hk, e, he, hx⟩
        rcases List.mem_cons.1 hk with rfl | hk
        · rw [hd] at he
          cases he
          exact .inl hx
        · obtain ⟨c, hc, hk⟩ := List.mem_flatMap.1 hk
          refine .inr (List.mem_flatMap_of_mem hc ?_)
          exact (ih (lt_of_get? hd) c (hbelow c hc)).2 ⟨k, hk, e, he, hx⟩

/-- If each declaration yields one thing, before what is below it, they come in the order of
the source. -/
theorem filterMap_collect (hs : s.IsForest) {node : Nat → Declaration → List α → List α}
    {pick : α → Option β} {yield : Nat → β}
    (hnode : ∀ id d nested, s.get? id = some d →
      (node id d nested).filterMap pick = yield id :: nested.filterMap pick) (id : Nat) :
    (s.collect node id).filterMap pick = (s.subtree id).map yield := by
  induction id using s.downward_induction with
  | step id ih =>
    cases hd : s.get? id with
    | none => simp [collect_of_none hd, subtree]
    | some d =>
      have hchildren : (d.children.flatMap (s.collect node)).filterMap pick =
          (d.children.flatMap s.subtree).map yield := by
        rw [List.filterMap_flatMap, List.map_flatMap]
        refine List.flatMap_congr fun c hc => ih (lt_of_get? hd) c ?_
        exact (hs.isParent_lt ((hs.mem_children_iff hd).1 hc)).1
      rw [hs.ascending.collect_eq hd, hnode id d _ hd, hchildren, subtree, hs.ascending.collect_eq hd]
      rfl

end Schema

/-! ### What generated code tells -/

namespace Swift
open Script Script.Writes
variable {s : Schema} {p : Prefixes}

/-- What the lines of a declaration tell, around what those of its nested declarations tell. -/
def marksOf (s : Schema) (id : Nat) (d : Declaration) (nested : List Mark) : List Mark :=
  match d.kind with
  | .message => messageMarks s id d (s.chainAround id) nested
  | .enumeration => enumMarks d (s.chainAround id) ++ nested

/-- The error of the outermost message is written as a reference. -/
theorem allOf_errorRef (h : s.Linked p) (hw : s.Worded p) {id : Nat}
    (hid : id < s.declarations.length) : AllOf isRef (errorRef s id) ∧ errorRef s id ≠ "" := by
  obtain ⟨d, hd, -⟩ := h.forest.root _ (Schema.topOf_mem h.forest hid)
  have htexts : AllOf isRef "." ∧ AllOf isRef "Error" := by decide
  have hspelled := h.spelled hw hd
  have href : errorRef s id = d.names.path ++ "." ++ d.names.wrapper ++ "Error" :=
    Schema.viewAt_of_get? hd ..
  rw [href]
  refine ⟨?_, by simp⟩
  simp [htexts, hspelled.path, hspelled.wrapper.ref]

/-- A declaration writes its marks under the wrappers around it. -/
theorem writes_collect (h : s.Linked p) (hw : s.Worded p) (id : Nat) :
    Writes (s.collect (declarationScript s) id) (s.chainAround id) (s.chainAround id).length
      (s.collect (marksOf s) id) := by
  induction id using s.downward_induction with
  | step id ih =>
    cases hd : s.get? id with
    | none =>
      rw [Schema.collect_of_none hd, Schema.collect_of_none hd]
      exact nil
    | some d =>
      have hspelled := h.spelled hw hd
      obtain ⟨herror, hne⟩ := allOf_errorRef h hw (Schema.lt_of_get? hd)
      have hnested : Writes (d.children.flatMap (s.collect (declarationScript s)))
          (s.chainAround id ++ [d.names.wrapper]) ((s.chainAround id).length + 1)
          (d.children.flatMap (s.collect (marksOf s))) := by
        refine flatMap fun c hc => ?_
        have hparent := (h.forest.mem_children_iff hd).1 hc
        have hchild := ih (Schema.lt_of_get? hd) c (h.forest.isParent_lt hparent).1
        rw [Schema.chainAround_child h.forest hparent, Schema.pathChain_eq_concat hd,
          List.length_append] at hchild
        exact hchild
      rw [h.forest.ascending.collect_eq hd, h.forest.ascending.collect_eq hd, declarationScript, marksOf]
      cases hbody : d.body with
      | message children fields =>
        have hkind : d.kind = .message := by rw [Declaration.kind, hbody]; rfl
        rw [hkind]
        exact writes_messageScript hspelled (fun f hf => h.spelled_field hw hd hf) herror hne hnested
      | enumeration items =>
        have hkind : d.kind = .enumeration := by rw [Declaration.kind, hbody]; rfl
        have hitems : d.items = items := by rw [Declaration.items, hbody]; rfl
        have hchildren : d.children = [] := by rw [Declaration.children, hbody]; rfl
        rw [hkind, hchildren]
        refine (writes_enumScript hspelled fun item hitem => ?_).of_eq (List.append_nil _).symm
        obtain ⟨hname, hindex⟩ := h.items id d hd item (hitems ▸ hitem)
        exact ⟨allOf_isLetter_of_run hname, hindex.1⟩

/-- The whole script writes the marks of its declarations. -/
theorem writes_script (h : s.Linked p) (hw : s.Worded p) :
    Writes (script s) [] 0 (s.roots.flatMap (s.collect (marksOf s))) := by
  have hbanner : ∀ line ∈ (Sheet.Step.lines banner).texts, Plain line := by decide +kernel
  have hroots : Writes (s.roots.flatMap fun root => s.collect (declarationScript s) root) [] 0
      (s.roots.flatMap (s.collect (marksOf s))) := by
    refine flatMap fun root hroot => ?_
    have hwrites := writes_collect h hw root
    rwa [Schema.chainAround_root h.forest hroot] at hwrites
  exact cons (plain_lines hbanner) hroots

/-- **What generated code tells is what its declarations tell.** -/
theorem marks_code (h : s.Linked p) (hw : s.Worded p) :
    Code.marks (code s) = s.roots.flatMap (s.collect (marksOf s)) :=
  (writes_script h hw).marks_text

theorem mem_marksOf (s : Schema) (id : Nat) (d : Declaration) (nested : List Mark) (m : Mark) :
    m ∈ marksOf s id d nested ↔ m ∈ marksOf s id d [] ∨ m ∈ nested := by
  unfold marksOf
  cases d.kind with
  | message =>
    simp only [messageMarks, List.mem_cons, List.mem_append, List.append_nil]
    tauto
  | enumeration => simp

theorem mem_marks_iff (h : s.Linked p) (hw : s.Worded p) {m : Mark} :
    m ∈ Code.marks (code s) ↔ ∃ id d, s.get? id = some d ∧ m ∈ marksOf s id d [] := by
  have hcollect (root : Nat) : m ∈ s.collect (marksOf s) root ↔
      ∃ id ∈ s.subtree root, ∃ d, s.get? id = some d ∧ m ∈ marksOf s id d [] :=
    Schema.mem_collect_iff h.forest (mem_marksOf s)
  rw [marks_code h hw, List.mem_flatMap]
  constructor
  · rintro ⟨root, -, hm⟩
    obtain ⟨id, -, d, hd, hm⟩ := (hcollect root).1 hm
    exact ⟨id, d, hd, hm⟩
  · rintro ⟨id, d, hd, hm⟩
    obtain ⟨root, hroot, hid⟩ := List.mem_flatMap.1 (h.forest.mem_listed.2 (Schema.lt_of_get? hd))
    exact ⟨root, hroot, (hcollect root).2 ⟨id, hid, d, hd, hm⟩⟩

end Swift

/-- The kind and the path of a wrapper, from its heading. -/
def Mark.heading? (m : Mark) : Option (Kind × String) :=
  match m.sign with
  | .opens kind name => some (kind, dotted (m.around ++ [name]))
  | _ => none

/-- The kinds and the paths of all wrappers, from their headings. -/
def Code.headings (code : String) : List (Kind × String) := (marks code).filterMap Mark.heading?

/-- The kind of a declaration and the path of its wrapper. -/
def Schema.headingOf (s : Schema) (id : Nat) : Kind × String :=
  s.viewAt id (.message, "") fun d => (d.kind, d.names.path)

namespace Swift
variable {s : Schema} {p : Prefixes}

theorem filterMap_marksOf (h : s.Linked p) {id : Nat} {d : Declaration} (hd : s.get? id = some d)
    (nested : List Mark) : (marksOf s id d nested).filterMap Mark.heading? =
      s.headingOf id :: nested.filterMap Mark.heading? := by
  have hpath : d.names.path = dotted (s.chainAround id ++ [d.names.wrapper]) := by
    have hpathOf : s.pathOf id = d.names.path := Schema.viewAt_of_get? hd ..
    rw [← hpathOf, h.pathOf_eq (Schema.lt_of_get? hd), Schema.pathChain_eq_concat hd]
  have hheading : s.headingOf id = (d.kind, d.names.path) := Schema.viewAt_of_get? hd ..
  rw [hheading, hpath]
  unfold marksOf
  cases d.kind with
  | message =>
    have hnone (fields : List Field) : fields.flatMap (fun _ => ([] : List (Kind × String))) = [] :=
      List.flatMap_eq_nil_iff.2 fun _ _ => rfl
    simp only [messageMarks, readMarks, List.filterMap_cons, List.filterMap_append,
      List.filterMap_map, List.filterMap_flatMap, Function.comp_def, Mark.heading?,
      List.filterMap_none, List.append_nil, hnone]
    split <;> rfl
  | enumeration => simp [enumMarks, Mark.heading?, List.filterMap_cons]

/-- **The headings of generated code are the declarations as they are listed**, each under its
path. -/
theorem headings_code (h : s.Linked p) (hw : s.Worded p) :
    Code.headings (code s) = s.listed.map s.headingOf := by
  rw [Code.headings, marks_code h hw, List.filterMap_flatMap, Schema.listed, List.map_flatMap]
  exact List.flatMap_congr fun root _ =>
    Schema.filterMap_collect h.forest (fun id d nested hd => filterMap_marksOf h hd nested) root

/-- Something stands directly in the class at the end of a chain of wrappers. -/
structure Stands (code : String) (chain : List String) (sign : Sign) : Prop where
  mark : ⟨chain, true, sign⟩ ∈ Code.marks code
  heading : (Kind.message, dotted chain) ∈ Code.headings code

/-- Generated code agrees with the names that the schema has for it. -/
structure Agrees (s : Schema) (code : String) : Prop where
  /-- The declarations are listed once each. -/
  once : s.listed = List.range s.declarations.length
  /-- Each has one heading, of its kind and at its path, in the order of the list. -/
  headings : Code.headings code = s.listed.map s.headingOf
  /-- Headings stand directly in the wrappers around them. -/
  direct : ∀ m ∈ Code.marks code, ∀ kind name, m.sign = .opens kind name → m.direct = true
  /-- A property stands directly in its class. If its type is a declaration's, there is a
  heading at that path. -/
  properties : ∀ m ∈ Code.marks code, ∀ name type, m.sign = .declares name type →
    m.direct = true ∧ ∃ id d, s.get? id = some d ∧ m.around = s.pathChain id ∧
      ∃ f ∈ d.fields, name = escaped f.name ∧ type = f.elementType s ∧
        (f.holdsMessage = true → (.message, type) ∈ Code.headings code) ∧
        (f.holdsEnum = true → (.enumeration, type) ∈ Code.headings code)
  /-- Each field has its property. -/
  shown : ∀ id d, s.get? id = some d → ∀ f ∈ d.fields,
    ⟨s.pathChain id, true, .declares (escaped f.name) (f.elementType s)⟩ ∈ Code.marks code
  /-- A function that is called stands directly in the class that the reference names. -/
  calls : ∀ m ∈ Code.marks code, ∀ ref, m.sign = .calls ref →
    ∃ chain function, ref = dotted (chain ++ [function]) ∧ Stands code chain (.defines function)
  /-- A field that holds an enum calls both of its converters, which stand directly in the
  class around the enum. -/
  converters : ∀ id d, s.get? id = some d → ∀ f ∈ d.fields, ∀ target,
    f.type = .enumeration target → ∀ suffix ∈ ["Wrap", "Unwrap"],
      ⟨s.pathChain id, false, .calls (converterRef s target suffix)⟩ ∈ Code.marks code ∧
      ∃ owner e, s.get? target = some e ∧ e.parent = some owner ∧
        converterRef s target suffix = s.pathOf owner ++ "." ++ e.names.wrapper ++ suffix ∧
        Stands code (s.pathChain owner) (.defines (e.names.wrapper ++ suffix))
  /-- An error that is thrown is of the type that stands directly in the outermost class. -/
  throws : ∀ m ∈ Code.marks code, ∀ type, m.sign = .throws type →
    ∃ top error, type = dotted [top, error] ∧ m.around.head? = some top ∧
      Stands code [top] (.errs error)
  /-- A field that is required throws. -/
  required : ∀ id d, s.get? id = some d → ∀ f ∈ d.fields, f.cardinality = some .required →
    ⟨s.pathChain id, false, .throws (errorRef s id)⟩ ∈ Code.marks code

/-- What the lines of one declaration tell. -/
inductive Told (s : Schema) (id : Nat) (d : Declaration) : Mark → Prop where
  | opens : Told s id d ⟨s.chainAround id, true, .opens d.kind d.names.wrapper⟩
  | errs (hkind : d.kind = .message) (hparent : d.parent = none) :
      Told s id d ⟨s.pathChain id, true, .errs (d.names.wrapper ++ "Error")⟩
  | declares {f : Field} (hf : f ∈ d.fields) :
      Told s id d ⟨s.pathChain id, true, .declares (escaped f.name) (f.elementType s)⟩
  | parses (hkind : d.kind = .message) : Told s id d ⟨s.pathChain id, true, .defines "parseProto"⟩
  | throws {f : Field} (hf : f ∈ d.fields) (hrequired : f.cardinality = some .required) :
      Told s id d ⟨s.pathChain id, false, .throws (errorRef s id)⟩
  | calls {f : Field} (hf : f ∈ d.fields) {ref : String} (href : ref ∈ reads s f ++ builds s f) :
      Told s id d ⟨s.pathChain id, false, .calls ref⟩
  | converts (hkind : d.kind = .enumeration) {suffix : String}
      (hsuffix : suffix ∈ ["Wrap", "Unwrap"]) :
      Told s id d ⟨s.chainAround id, true, .defines (d.names.wrapper ++ suffix)⟩

theorem kind_of_mem_fields {d : Declaration} {f : Field} (h : f ∈ d.fields) : d.kind = .message := by
  obtain ⟨_, _, body, _⟩ := d
  cases body with
  | message => rfl
  | enumeration => cases h

theorem told_iff_of_message {id : Nat} {d : Declaration} (hd : s.get? id = some d)
    (hkind : d.kind = .message) {m : Mark} :
    m ∈ messageMarks s id d (s.chainAround id) [] ↔ Told s id d m := by
  rw [mem_messageMarks_iff, ← Schema.pathChain_eq_concat hd]
  constructor
  · rintro (rfl | ⟨hparent, rfl⟩ | hm | ⟨f, hf, rfl⟩ | rfl | ⟨f, hf, hm⟩ | ⟨f, hf, ref, href, rfl⟩)
    · rw [← hkind]
      exact .opens
    · exact .errs hkind hparent
    · cases hm
    · exact .declares hf
    · exact .parses hkind
    · rcases mem_readMarks_iff.1 hm with ⟨hrequired, rfl⟩ | ⟨ref, href, rfl⟩
      · exact .throws hf hrequired
      · exact .calls hf (List.mem_append_left _ href)
    · exact .calls hf (List.mem_append_right _ href)
  · intro htold
    cases htold with
    | opens => exact .inl (by rw [hkind])
    | errs _ hparent => exact .inr (.inl ⟨hparent, rfl⟩)
    | declares hf => exact .inr (.inr (.inr (.inl ⟨_, hf, rfl⟩)))
    | parses => exact .inr (.inr (.inr (.inr (.inl rfl))))
    | throws hf hrequired =>
      refine .inr (.inr (.inr (.inr (.inr (.inl ⟨_, hf, ?_⟩)))))
      exact mem_readMarks_iff.2 (.inl ⟨hrequired, rfl⟩)
    | calls hf href =>
      rcases List.mem_append.1 href with href | href
      · refine .inr (.inr (.inr (.inr (.inr (.inl ⟨_, hf, ?_⟩)))))
        exact mem_readMarks_iff.2 (.inr ⟨_, href, rfl⟩)
      · exact .inr (.inr (.inr (.inr (.inr (.inr ⟨_, hf, _, href, rfl⟩)))))
    | converts hkind' => rw [hkind] at hkind'; cases hkind'

theorem told_iff_of_enumeration {id : Nat} {d : Declaration} (hkind : d.kind = .enumeration)
    {m : Mark} : m ∈ enumMarks d (s.chainAround id) ↔ Told s id d m := by
  have hno_message : d.kind ≠ .message := by rw [hkind]; decide
  rw [mem_enumMarks_iff]
  constructor
  · rintro (rfl | ⟨suffix, hsuffix, rfl⟩)
    · rw [← hkind]
      exact .opens
    · exact .converts hkind hsuffix
  · intro htold
    cases htold with
    | opens => exact .inl (by rw [hkind])
    | converts _ hsuffix => exact .inr ⟨_, hsuffix, rfl⟩
    | errs hmessage | parses hmessage => exact absurd hmessage hno_message
    | declares hf | throws hf | calls hf => exact absurd (kind_of_mem_fields hf) hno_message

/-- What the wrapper of a declaration tells, case by case. -/
theorem told_iff {id : Nat} {d : Declaration} (hd : s.get? id = some d) {m : Mark} :
    m ∈ marksOf s id d [] ↔ Told s id d m := by
  rw [marksOf]
  cases hkind : d.kind with
  | message => exact told_iff_of_message hd hkind
  | enumeration =>
    rw [List.append_nil]
    exact told_iff_of_enumeration hkind

section
variable (h : s.Linked p) (hw : s.Worded p)
include h hw

theorem mem_headings {id : Nat} {d : Declaration} (hd : s.get? id = some d) :
    (d.kind, d.names.path) ∈ Code.headings (code s) := by
  have hheading : s.headingOf id = (d.kind, d.names.path) := Schema.viewAt_of_get? hd ..
  rw [headings_code h hw, ← hheading]
  exact List.mem_map_of_mem (h.forest.mem_listed.2 (Schema.lt_of_get? hd))

theorem mem_headings_chain {id : Nat} {d : Declaration} (hd : s.get? id = some d)
    (hkind : d.kind = .message) : (Kind.message, dotted (s.pathChain id)) ∈ Code.headings (code s) := by
  have hpath : s.pathOf id = d.names.path := Schema.viewAt_of_get? hd ..
  rw [← h.pathOf_eq (Schema.lt_of_get? hd), hpath, ← hkind]
  exact mem_headings h hw hd

theorem mem_marks_iff_told {m : Mark} :
    m ∈ Code.marks (code s) ↔ ∃ id d, s.get? id = some d ∧ Told s id d m := by
  rw [mem_marks_iff h hw]
  exact exists_congr fun id => exists_congr fun d => and_congr_right fun hd => told_iff hd

theorem mem_marks_of_told {id : Nat} {d : Declaration} (hd : s.get? id = some d) {m : Mark}
    (hm : Told s id d m) : m ∈ Code.marks (code s) :=
  (mem_marks_iff_told h hw).2 ⟨id, d, hd, hm⟩

/-! ### References -/

omit hw in
theorem dotted_pathChain {id : Nat} {d : Declaration} (hd : s.get? id = some d) (name : String) :
    dotted (s.pathChain id ++ [name]) = s.pathOf id ++ "." ++ name := by
  rw [dotted_concat (by simp [Schema.pathChain]), h.pathOf_eq (Schema.lt_of_get? hd)]

/-- Each message has its function that reads it. -/
theorem stands_parseProto {id : Nat} {d : Declaration} (hd : s.get? id = some d)
    (hkind : d.kind = .message) : Stands (code s) (s.pathChain id) (.defines "parseProto") :=
  ⟨mem_marks_of_told h hw hd (.parses hkind), mem_headings_chain h hw hd hkind⟩

/-- An enum is never at file scope, so its converters have a class to stand in. -/
theorem stands_converter {target : Nat} {e : Declaration} (he : s.get? target = some e)
    (hkind : e.kind = .enumeration) (suffix : String) (hsuffix : suffix ∈ ["Wrap", "Unwrap"]) :
    ∃ owner, e.parent = some owner ∧
      converterRef s target suffix = s.pathOf owner ++ "." ++ e.names.wrapper ++ suffix ∧
      converterRef s target suffix = dotted (s.pathChain owner ++ [e.names.wrapper ++ suffix]) ∧
      Stands (code s) (s.pathChain owner) (.defines (e.names.wrapper ++ suffix)) := by
  cases hparent : e.parent with
  | none =>
    have hroot := h.forest.mem_roots_iff.2 ⟨e, he, hparent⟩
    rw [h.rootKind target hroot e he] at hkind
    cases hkind
  | some owner =>
    have hup : s.IsParent owner target := Schema.parentOf_eq_some_iff.2 ⟨e, he, hparent⟩
    obtain ⟨-, d, hd, hmessage⟩ := h.forest.parent_message hup
    have href : converterRef s target suffix =
        s.pathOf owner ++ "." ++ e.names.wrapper ++ suffix := by
      rw [converterRef, Schema.viewAt_of_get? he, hparent]
    refine ⟨owner, rfl, href, ?_, ?_, mem_headings_chain h hw hd hmessage⟩
    · rw [href, dotted_pathChain h hd]
      simp only [String.append_assoc]
    · rw [← Schema.chainAround_child h.forest hup]
      exact mem_marks_of_told h hw he (.converts hkind hsuffix)

/-- Whatever a field calls is defined where the reference says. -/
theorem stands_call {id : Nat} {d : Declaration} (hd : s.get? id = some d) {f : Field}
    (hf : f ∈ d.fields) {ref : String} (href : ref ∈ reads s f ++ builds s f) :
    ∃ chain function, ref = dotted (chain ++ [function]) ∧
      Stands (code s) chain (.defines function) := by
  unfold reads builds at href
  cases h.types id d hd f hf with
  | scalar htype => simp [htype] at href
  | message htype he hkind =>
    rw [htype] at href
    obtain rfl : ref = s.pathOf _ ++ ".parseProto" := by simpa using href
    refine ⟨s.pathChain _, "parseProto", ?_, stands_parseProto h hw he hkind⟩
    rw [dotted_pathChain h he, String.append_assoc]
    rfl
  | enumeration htype he hkind =>
    rw [htype] at href
    simp only [List.cons_append, List.nil_append, List.mem_cons, List.not_mem_nil, or_false] at href
    rcases href with rfl | rfl
    · obtain ⟨owner, -, -, hdotted, hstands⟩ :=
        stands_converter h hw he hkind "Wrap" (by simp)
      exact ⟨_, _, hdotted, hstands⟩
    · obtain ⟨owner, -, -, hdotted, hstands⟩ :=
        stands_converter h hw he hkind "Unwrap" (by simp)
      exact ⟨_, _, hdotted, hstands⟩

/-- So is the error that a message throws. -/
theorem stands_error {id : Nat} (hid : id < s.declarations.length) :
    ∃ top error, errorRef s id = dotted [top, error] ∧ (s.pathChain id).head? = some top ∧
      Stands (code s) [top] (.errs error) := by
  have hroot := Schema.topOf_mem h.forest hid
  obtain ⟨d, hd, hparent⟩ := h.forest.root _ hroot
  have hkind := h.rootKind _ hroot d hd
  have hchain : s.pathChain (s.topOf id) = [d.names.wrapper] := by
    rw [Schema.pathChain_eq_concat hd, Schema.chainAround_root h.forest hroot]
    rfl
  have hwrapper : s.wrapperOf (s.topOf id) = d.names.wrapper := Schema.viewAt_of_get? hd ..
  have hpath : s.pathOf (s.topOf id) = d.names.path := Schema.viewAt_of_get? hd ..
  have href : errorRef s id = d.names.path ++ "." ++ d.names.wrapper ++ "Error" :=
    Schema.viewAt_of_get? hd ..
  have hdotted := dotted_pathChain h hd (d.names.wrapper ++ "Error")
  rw [hchain, hpath] at hdotted
  refine ⟨d.names.wrapper, d.names.wrapper ++ "Error", ?_, ?_, ?_, ?_⟩
  · rw [href, String.append_assoc]
    exact hdotted.symm
  · rw [Schema.head?_pathChain, hwrapper]
  · rw [← hchain]
    exact mem_marks_of_told h hw hd (.errs hkind hparent)
  · rw [← hchain]
    exact mem_headings_chain h hw hd hkind

/-- The type of a field that holds a declaration is the path of a heading of that kind. -/
theorem type_mem_headings {id : Nat} {d : Declaration} (hd : s.get? id = some d) {f : Field}
    (hf : f ∈ d.fields) :
    (f.holdsMessage = true → (.message, f.elementType s) ∈ Code.headings (code s)) ∧
      (f.holdsEnum = true → (.enumeration, f.elementType s) ∈ Code.headings (code s)) := by
  have hpath {target : Nat} {e : Declaration} (he : s.get? target = some e) :
      (e.kind, s.pathOf target) ∈ Code.headings (code s) := by
    rw [Schema.pathOf, Schema.viewAt_of_get? he]
    exact mem_headings h hw he
  unfold Field.holdsMessage Field.holdsEnum Field.elementType
  cases h.types id d hd f hf with
  | scalar htype => simp [htype]
  | message htype he hkind =>
    have hmem := hpath he
    rw [hkind] at hmem
    simpa [htype] using hmem
  | enumeration htype he hkind =>
    have hmem := hpath he
    rw [hkind] at hmem
    simpa [htype] using hmem

theorem agrees_code : Agrees s (code s) where
  once := h.forest.preorder
  headings := headings_code h hw
  direct m hm kind name hsign := by
    obtain ⟨id, d, hd, htold⟩ := (mem_marks_iff_told h hw).1 hm
    cases htold <;> simp_all
  properties m hm name type hsign := by
    obtain ⟨id, d, hd, htold⟩ := (mem_marks_iff_told h hw).1 hm
    cases htold with
    | declares hf =>
      cases hsign
      obtain ⟨hmessage, henum⟩ := type_mem_headings h hw hd hf
      exact ⟨rfl, id, d, hd, rfl, _, hf, rfl, rfl, hmessage, henum⟩
    | _ => cases hsign
  shown id d hd f hf := mem_marks_of_told h hw hd (.declares hf)
  calls m hm ref hsign := by
    obtain ⟨id, d, hd, htold⟩ := (mem_marks_iff_told h hw).1 hm
    cases htold with
    | calls hf href =>
      cases hsign
      exact stands_call h hw hd hf href
    | _ => cases hsign
  converters id d hd f hf target htype suffix hsuffix := by
    have href : converterRef s target suffix ∈ reads s f ++ builds s f := by
      unfold reads builds
      rcases List.mem_pair.1 hsuffix with rfl | rfl <;> simp [htype]
    refine ⟨mem_marks_of_told h hw hd (.calls hf href), ?_⟩
    cases h.types id d hd f hf with
    | scalar htype' => simp [htype] at htype'
    | message htype' => simp [htype] at htype'
    | enumeration htype' he hkind =>
      obtain rfl : target = _ := by simpa [htype] using htype'
      obtain ⟨owner, hparent, hpath, -, hstands⟩ := stands_converter h hw he hkind suffix hsuffix
      exact ⟨owner, _, he, hparent, hpath, hstands⟩
  throws m hm type hsign := by
    obtain ⟨id, d, hd, htold⟩ := (mem_marks_iff_told h hw).1 hm
    cases htold with
    | throws hf hrequired =>
      cases hsign
      exact stands_error h hw (Schema.lt_of_get? hd)
    | _ => cases hsign
  required id d hd f hf hrequired := mem_marks_of_told h hw hd (.throws hf hrequired)

end
end Swift

/-- **Generated code agrees with the names that it refers to.** For every text that can be
linked and whose names are words, there is generated code, its headings are the declarations,
and whatever its lines refer to by a path stands there. -/
theorem Output.wrappers_agree {p : Prefixes} {text : String} {s : Schema}
    (h : Schema.linkedOfText p text = .ok s) (hw : s.Worded p) :
    ∃ code, Output.wrappers p text = .ok code ∧ Swift.Agrees s code := by
  refine ⟨Swift.code s, ?_, Swift.agrees_code (Schema.linked_of_text h) hw⟩
  rw [Output.wrappers, h]
  rfl

/-- A nested message that uses what is beside it and what is around it. -/
def Document.partSample : Document where
  package := none
  roots := .message "note" []
    (.enumeration "Kind" [⟨"first_one", 0⟩]
      (.message "part" [.declare (some .required) "Kind" "kind" 1 none,
        .declare (some .repeated) "note" "notes" 2 none] .nil .nil)) .nil

def partText : String :=
  "message note \x7b\n enum Kind \x7b\n first_one = 0;\n \x7d\n message part \x7b\n" ++
    " required Kind kind = 1;\n repeated note notes = 2;\n \x7d\n\x7d\n"

theorem Output.wrappers_agree_part :
    Schema.linkedOfText ⟨"P", "W"⟩ partText =
        .ok (Document.partSample.toSchema.link ⟨"P", "W"⟩).schema ∧
      ∃ code, Output.wrappers ⟨"P", "W"⟩ partText = .ok code ∧
        Swift.Agrees (Document.partSample.toSchema.link ⟨"P", "W"⟩).schema code := by
  have h : Schema.linkedOfText ⟨"P", "W"⟩ partText =
      .ok (Document.partSample.toSchema.link ⟨"P", "W"⟩).schema := by decide +kernel
  have hw : (Document.partSample.toSchema.link ⟨"P", "W"⟩).schema.Worded ⟨"P", "W"⟩ := {
    names := by decide +kernel
    wrapper := List.all_eq_true.1 (by decide)
    wire := List.all_eq_true.1 (by decide) }
  exact ⟨h, Output.wrappers_agree h hw⟩

end SwiftWrap
