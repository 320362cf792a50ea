import SwiftWrap.Proofs.Blocks
import SwiftWrap.Proofs.Emission

/-! What the members of a wrapper class do with its fields.

A class has properties, an initializer, a function that reads a message from its wire type and
a value that builds the wire type. `Code.member?` reads them from the blocks of the class: the
properties with their types, the parameters and assignments of the initializer, and what the
two conversions do, statement by statement.

The rest says what is read from the lines that are written for a field. -/
namespace SwiftWrap
open Text

namespace Code

/-! ### Reading members -/

/-- What stands on both sides of a gap, which begins at the first of its characters. -/
def cut? (stop : Char) (gap : String) (cs : List Char) : Option (String × String) :=
  (after? gap.toList (cs.dropWhile (· ≠ stop))).map fun rest =>
    (.ofList (cs.takeWhile (· ≠ stop)), .ofList rest)

/-- Names with what is behind their colons, between commas. -/
def labelled? (cs : List Char) : Option (List (String × String)) :=
  if cs.isEmpty then some []
  else (List.splitOn ',' cs).mapM fun piece => cut? ':' ": " (piece.dropWhile (· = ' '))

/-- What follows a beginning, and whether it can be seen from Objective-C. -/
def visible? (start text : String) : Option (Bool × List Char) :=
  ((after? ("@objc " ++ start).toList text.toList).map (true, ·)).or
    ((after? start.toList text.toList).map (false, ·))

/-- The two sides of an assignment behind some words. -/
def assigned? (lead text : String) : Option (String × String) :=
  (after? lead.toList text.toList).bind (cut? ' ' " = ")

end Code

/-- A property, with its type as it is written. -/
structure Property where
  visible : Bool
  name : String
  type : String
deriving DecidableEq

/-- An initializer: its parameters with their types, and what it assigns to which member. -/
structure Initializer where
  visible : Bool
  parameters : List (String × String)
  assignments : List (String × String)
deriving DecidableEq

/-- What a statement does where a message is read from the wire. -/
inductive ReadStep where
  /-- A field must be there. -/
  | guards (flag : String)
  /-- A value is made of a field, perhaps only if it is there. -/
  | reads (flag : Option String) (into field : String)
deriving DecidableEq

/-- The function that reads a message: its statements, and the arguments of the call at its end
behind their labels. -/
structure Parser where
  steps : List ReadStep
  arguments : List (String × String)
deriving DecidableEq

/-- What a statement does where a message is built for the wire. -/
inductive BuildStep where
  /-- A list is made of a property, item by item. -/
  | loops (into property : String)
  /-- A field gets a value, perhaps only if the property has one. -/
  | sets (unwrapped : Bool) (field value : String)
deriving DecidableEq

/-- A member of a wrapper class that has to do with the fields. -/
inductive Member where
  | property (property : Property)
  | initializer (initializer : Initializer)
  /-- The function that reads a message. -/
  | parser (parser : Parser)
  /-- The value that is built for the wire. -/
  | builder (steps : List BuildStep)
deriving DecidableEq

namespace Code

/-- The property that a line declares, with its whole type. -/
def declared? (text : String) : Option Property := do
  let (visible, rest) ← visible? "public let " text
  let (name, type) ← cut? ':' ": " rest
  return ⟨visible, name, type⟩

/-- The initializer that a block is. -/
def initializer? (b : Block) : Option Initializer := do
  let (visible, rest) ←
    (visible? "public init(" b.head).or (visible? "public override init(" b.head)
  let inside ← between? "" ") \x7b" (.ofList rest)
  let parameters ← labelled? inside.toList
  return ⟨visible, parameters, b.inner.filterMap (assigned? "self." ·.head)⟩

/-- The name behind the dot, where a text ends with a part of some value. -/
def partOf? (owner value : String) : Option String :=
  (after? (owner ++ ".").toList (argument value)).map fun rest => .ofList (rest.takeWhile isLetter)

/-- The list to which an item is added, converted or not. -/
def appended? (text : String) : Option String := do
  let (list, _) ← cut? '.' ".append(" text.toList
  let _ ← after? "item".toList (argument text)
  return list

/-- A value that is made of a field on the wire, and the field. -/
def taken? (lead text : String) : Option (String × String) := do
  let (into, value) ← assigned? lead text
  let field ← partOf? "proto" value
  return (into, field)

/-- What a statement does where a message is read. -/
def readSteps (b : Block) : List ReadStep :=
  ((between? "guard proto.has" " else \x7b" b.head).map .guards).toList ++
  ((taken? "let " b.head).map fun (into, field) => .reads none into field).toList ++
  ((between? "if proto.has" " \x7b" b.head).toList.flatMap fun flag =>
    b.inner.filterMap fun c => (taken? "" c.head).map fun (into, field) =>
      .reads (some flag) into field) ++
  (between? "for item in proto." " \x7b" b.head).toList.flatMap fun field =>
    b.inner.filterMap fun c => (appended? c.head).map (.reads none · field)

/-- The function that reads a message, if a block is it. -/
def parser? (b : Block) : Option Parser := do
  let _ ← after? "fileprivate class func parseProto(".toList b.head.toList
  let last ← b.inner.getLast?
  let call ← between? "return " ")" last.head
  let (_, arguments) ← cut? '(' "(" call.toList
  return ⟨b.inner.flatMap readSteps, ← labelled? arguments.toList⟩

/-- What a statement does where a message is built. The value of a property that may be nil has
a name of its own where it is not. -/
def buildSteps (b : Block) : List BuildStep :=
  ((assigned? "builder." b.head).map fun (field, value) =>
    .sets false field ((partOf? "self" value).getD value)).toList ++
  (((between? "if let " " \x7b" b.head).bind fun binding =>
      cut? ' ' " = self." binding.toList).toList.flatMap fun (name, property) =>
    b.inner.filterMap fun c => do
      let (field, value) ← assigned? "builder." c.head
      let _ ← after? name.toList value.toList
      return .sets true field property) ++
  (between? "for item in self." " \x7b" b.head).toList.flatMap fun property =>
    b.inner.filterMap fun c => (appended? c.head).map (.loops · property)

/-- What is done to a builder, where a block has one. -/
def builderSteps (b : Block) : List BuildStep :=
  (between? "let proto = " ".with \x7b (builder) in" b.head).toList.flatMap fun _ =>
    b.inner.flatMap buildSteps

/-- What is done where a message is built, if a block does that. -/
def builder? (b : Block) : Option (List BuildStep) :=
  (after? "fileprivate var asProtobuf: ".toList b.head.toList).map fun _ =>
    b.inner.flatMap builderSteps

/-- A type `T?`. -/
def isOptionalType (type : String) : Bool := type.toList.getLast? == some '?'

/-- A type `[T]`. -/
def isListType (type : String) : Bool :=
  type.toList.head? == some '[' && type.toList.getLast? == some ']'

/-- The member that a block is. -/
def member? (b : Block) : Option Member :=
  ((declared? b.head).map .property).or <|
  ((initializer? b).map .initializer).or <|
  ((parser? b).map .parser).or <|
  (builder? b).map .builder

/-! ### Parts of lines -/

/-- A text is cut at the first gap that its name does not hold. -/
theorem cut?_eq {stop : Char} {gap name : String} (hgap : gap.toList.head? = some stop)
    (hname : stop ∉ name.toList) (rest : String) :
    cut? stop gap (name ++ (gap ++ rest)).toList = some (name, rest) := by
  have hrun : ∀ c ∈ name.toList, decide (c ≠ stop) = true := fun c hc =>
    decide_eq_true fun heq => hname (heq ▸ hc)
  have hstop : Stops (fun c => decide (c ≠ stop)) (gap ++ rest).toList := by
    obtain ⟨tail, htail⟩ := List.head?_eq_some_iff.1 hgap
    rw [String.toList_append, htail]
    simp
  rw [cut?, String.toList_append, dropWhile_run hrun hstop, takeWhile_run hrun hstop,
    after?_eq_some_iff.2 (String.toList_append ..)]
  simp

theorem argument_of_not_mem {text : String} (h : '(' ∉ text.toList) :
    argument text = text.toList := by
  have hrun : ∀ c ∈ text.toList.reverse, decide (c ≠ '(') = true := fun c hc =>
    decide_eq_true fun heq => h (heq ▸ List.mem_reverse.1 hc)
  rw [argument, List.takeWhile_eq_self_iff.2 hrun, List.reverse_reverse]

/-- The argument of a call is what stands behind its parenthesis. -/
theorem argument_append {rest : String} (h : '(' ∉ rest.toList) (lead : String) :
    argument (lead ++ ("(" ++ rest)) = rest.toList := by
  have hrun : ∀ c ∈ rest.toList.reverse, decide (c ≠ '(') = true := fun c hc =>
    decide_eq_true fun heq => h (heq ▸ List.mem_reverse.1 hc)
  have hreverse : (lead ++ ("(" ++ rest)).toList.reverse =
      rest.toList.reverse ++ '(' :: lead.toList.reverse := by
    simp
  rw [argument, hreverse, takeWhile_run hrun (stops_cons.2 (by decide)), List.reverse_reverse]

/-- A value is a part of its owner if the part's name stands behind the dot. -/
theorem partOf?_eq {owner value name : String} (tail : String) (hname : AllOf isLetter name)
    (htail : Stops isLetter tail.toList)
    (h : argument value = (owner ++ "." ++ (name ++ tail)).toList) :
    partOf? owner value = some name := by
  rw [partOf?, h, after?_eq_some_iff.2 (String.toList_append ..), String.toList_append]
  simp [takeWhile_run (fun c hc => hname.mem hc) htail]

/-- One name and its value, with or without a space in front. -/
theorem cut?_label {name : String} (hname : AllOf isName name) (hne : name ≠ "")
    (value : String) {gap : List Char} (hgap : ∀ c ∈ gap, c = ' ') :
    cut? ':' ": " ((gap ++ (name ++ ": " ++ value).toList).dropWhile (· = ' ')) =
      some (name, value) := by
  have hstop : Stops (fun c => decide (c = ' ')) (name ++ (": " ++ value)).toList := by
    rw [String.toList_append]
    refine Run.stops (p := isName) ⟨?_, fun c hc => hname.mem hc⟩ ?_ _
    · exact fun hnil => hne (String.toList_eq_nil_iff.1 hnil)
    · intro c hc
      refine decide_eq_false ?_
      rintro rfl
      exact absurd hc (by decide)
  have hcolon : ':' ∉ name.toList := fun hmem => absurd (hname.mem hmem) (by decide)
  rw [String.append_assoc, dropWhile_run (fun c hc => decide_eq_true (hgap c hc)) hstop]
  exact cut?_eq rfl hcolon value

section
variable {items : List α} {name value : α → String}

/-- The pieces between commas, one by one. Behind a comma there is a space, which belongs to the
next piece. -/
theorem mapM_splitOn_commas (hne : items ≠ [])
    (hname : ∀ a ∈ items, AllOf isName (name a) ∧ name a ≠ "")
    (hvalue : ∀ a ∈ items, ',' ∉ (value a).toList) {gap : List Char} (hgap : ∀ c ∈ gap, c = ' ') :
    (List.splitOn ','
        (gap ++ (Swift.commas (items.map fun a => name a ++ ": " ++ value a)).toList)).mapM
        (fun piece => cut? ':' ": " (piece.dropWhile (· = ' '))) =
      some (items.map fun a => (name a, value a)) := by
  induction items generalizing gap with
  | nil => exact absurd rfl hne
  | cons a rest ih =>
    obtain ⟨⟨hletters, hfilled⟩, hnames⟩ := List.forall_mem_cons.1 hname
    obtain ⟨ha, hvalues⟩ := List.forall_mem_cons.1 hvalue
    have hpiece : ',' ∉ gap ++ (name a ++ ": " ++ value a).toList := by
      have hgap : ',' ∉ gap := fun hmem => absurd (hgap _ hmem) (by decide)
      have hname : ',' ∉ (name a).toList := fun hmem => absurd (hletters.mem hmem) (by decide)
      simp [hgap, hname, ha]
    have hcut := cut?_label hletters hfilled (value a) hgap
    cases rest with
    | nil =>
      rw [List.map_singleton, Swift.commas, String.intercalate_singleton,
        List.splitOn_eq_singleton hpiece, List.mapM_cons, List.mapM_nil, hcut]
      rfl
    | cons b rest =>
      have hmore := ih (by simp) hnames hvalues (show ∀ c ∈ [' '], c = ' ' by simp)
      have hsplit : gap ++ (Swift.commas
            ((a :: b :: rest).map fun a => name a ++ ": " ++ value a)).toList =
          (gap ++ (name a ++ ": " ++ value a).toList) ++ ',' :: ([' '] ++
            (Swift.commas ((b :: rest).map fun a => name a ++ ": " ++ value a)).toList) := by
        simp [Swift.commas]
      rw [hsplit, List.splitOn_append_cons_self_of_not_mem hpiece, List.mapM_cons, hmore, hcut]
      rfl

/-- Names and values between commas are read back. -/
theorem labelled?_commas (hname : ∀ a ∈ items, AllOf isName (name a) ∧ name a ≠ "")
    (hvalue : ∀ a ∈ items, ',' ∉ (value a).toList) :
    labelled? (Swift.commas (items.map fun a => name a ++ ": " ++ value a)).toList =
      some (items.map fun a => (name a, value a)) := by
  cases items with
  | nil => rfl
  | cons a rest =>
    have hsome : (Swift.commas
        ((a :: rest).map fun a => name a ++ ": " ++ value a)).toList.isEmpty = false := by
      obtain ⟨tail, htail⟩ := Swift.commas_cons (name a ++ ": " ++ value a)
        (rest.map fun a => name a ++ ": " ++ value a)
      rw [List.map_cons, htail]
      simp
    rw [labelled?, hsome]
    exact @mapM_splitOn_commas _ _ _ _ (List.cons_ne_nil a rest) hname hvalue [] (by simp)

end

/-- Whether Objective-C sees a declaration is read off its attribute. -/
theorem visible?_eq {start : String} (h : clash ("@objc " ++ start).toList start.toList = true)
    (visible : Bool) (rest : String) :
    visible? start (Swift.objc visible ++ start ++ rest) = some (visible, rest.toList) := by
  cases visible with
  | true =>
    have hafter : after? ("@objc " ++ start).toList (Swift.objc true ++ start ++ rest).toList =
        some rest.toList :=
      after?_eq_some_iff.2 (String.toList_append ..)
    rw [visible?, hafter]
    rfl
  | false =>
    have hhidden : Swift.objc false ++ start ++ rest = start ++ rest := by
      rw [Swift.objc, if_neg (by decide), String.empty_append]
    rw [hhidden, visible?, after?_of_clash (clash_start h rest),
      after?_eq_some_iff.2 (String.toList_append ..)]
    rfl

theorem visible?_of_clash {start text : String}
    (h : clash ("@objc " ++ start).toList text.toList = true)
    (h' : clash start.toList text.toList = true) : visible? start text = none := by
  rw [visible?, after?_of_clash h, after?_of_clash h']
  rfl

/-- An assignment is cut at its equals sign. -/
theorem assigned?_eq {lead name text : String} (hname : ' ' ∉ name.toList) (value : String)
    (h : text = lead ++ (name ++ (" = " ++ value))) : assigned? lead text = some (name, value) := by
  rw [assigned?, h, after?_eq_some_iff.2 (String.toList_append ..)]
  exact cut?_eq rfl hname value

theorem assigned?_of_clash {lead text : String} (h : clash lead.toList text.toList = true) :
    assigned? lead text = none := by
  rw [assigned?, after?_of_clash h]
  rfl

/-- What properties begin with. -/
def letStarts : List String := ["@objc public let ", "public let "]

/-- What initializers begin with. -/
def initStarts : List String :=
  ["@objc public init(", "public init(", "@objc public override init(", "public override init("]

/-- What the members begin with that are read. -/
def memberStarts : List String :=
  letStarts ++ initStarts ++ ["fileprivate class func parseProto(", "fileprivate var asProtobuf: "]

section
variable {text : String} (inner : List Block)

theorem declared?_of_clash (h : ∀ start ∈ letStarts, clash start.toList text.toList = true) :
    declared? text = none := by
  simp only [letStarts, List.forall_mem_cons] at h
  have hnone : visible? "public let " text = none := visible?_of_clash h.1 h.2.1
  rw [declared?, hnone]
  rfl

theorem initializer?_of_clash (h : ∀ start ∈ initStarts, clash start.toList text.toList = true) :
    initializer? ⟨text, inner⟩ = none := by
  simp only [initStarts, List.forall_mem_cons] at h
  have hnone : visible? "public init(" text = none := visible?_of_clash h.1 h.2.1
  have hnone' : visible? "public override init(" text = none :=
    visible?_of_clash h.2.2.1 h.2.2.2.1
  rw [initializer?, hnone, hnone']
  rfl

theorem parser?_of_clash
    (h : clash "fileprivate class func parseProto(".toList text.toList = true) :
    parser? ⟨text, inner⟩ = none := by
  rw [parser?, after?_of_clash h]
  rfl

theorem builder?_of_clash (h : clash "fileprivate var asProtobuf: ".toList text.toList = true) :
    builder? ⟨text, inner⟩ = none := by
  rw [builder?, after?_of_clash h]
  rfl

/-- A block that begins like no member is none. -/
theorem member?_of_clash (h : ∀ start ∈ memberStarts, clash start.toList text.toList = true) :
    member? ⟨text, inner⟩ = none := by
  rw [memberStarts, List.forall_mem_append, List.forall_mem_append] at h
  obtain ⟨⟨hlet, hinit⟩, hrest⟩ := h
  simp only [List.forall_mem_cons] at hrest
  rw [member?, declared?_of_clash hlet, initializer?_of_clash inner hinit,
    parser?_of_clash inner hrest.1, builder?_of_clash inner hrest.2.1]
  rfl

/-- The same from the words at the beginning of a block. -/
theorem member?_of_lead {lead : String}
    (h : ∀ start ∈ memberStarts, clash start.toList lead.toList = true) (rest : String) :
    member? ⟨lead ++ rest, inner⟩ = none :=
  member?_of_clash inner fun start hstart => clash_start (h start hstart) rest

end

end Code

/-- Where every item yields something, nothing is left out. -/
theorem filterMap_map_eq {items : List α} {f : α → β} {pick : β → Option γ} {yield : α → γ}
    (h : ∀ a ∈ items, pick (f a) = some (yield a)) :
    (items.map f).filterMap pick = items.map yield := by
  rw [List.filterMap_map, ← List.filterMap_eq_map]
  exact List.filterMap_congr h

/-! ### Properties and initializer -/

theorem getLast?_toList_append (first : String) {second : String} {c : Char}
    (h : second.toList.getLast? = some c) : (first ++ second).toList.getLast? = some c := by
  rw [String.toList_append, List.getLast?_append, h]
  rfl

theorem Field.isOptional_of_isList {f : Field} (h : f.isList = true) : f.isOptional = false := by
  rw [isList, beq_iff_eq] at h
  rw [isOptional, h]
  rfl

theorem Swift.allOf_readLocal {f : Field} (h : AllOf isLetter f.name) :
    AllOf isName (readLocal f) := by
  have hsuffix : AllOf isName "Wrapped" := by decide
  rw [readLocal]
  split
  · exact allOf_append.2 ⟨h.mono fun _ => isName_of_isLetter, hsuffix⟩
  · exact allOf_escaped h

namespace Field.Spelled
variable {s : Schema} {f : Field} (h : f.Spelled s)
include h

theorem token_type : AllOf isToken (f.propertyType s) := by
  have hbracket : AllOf isToken "[" ∧ AllOf isToken "]" ∧ AllOf isToken "?" := by decide
  rw [propertyType]
  split
  · simp [hbracket, h.element.token]
  · split
    · simp [hbracket, h.element.token]
    · exact h.element.token

theorem escaped_ne : Swift.escaped f.name ≠ "" := Swift.escaped_ne_empty h.name_ne

/-- Only a list has a type in brackets. -/
theorem isListType_type : Code.isListType (f.propertyType s) = f.isList := by
  have hhead (tail : String) : ((f.elementType s ++ tail).toList.head? == some '[') = false := by
    rw [String.toList_append]
    cases helement : (f.elementType s).toList with
    | nil => exact absurd (String.toList_eq_nil_iff.1 helement) h.element_ne
    | cons c rest =>
      have hc := h.element.mem (helement ▸ List.mem_cons_self : c ∈ (f.elementType s).toList)
      rw [List.cons_append, List.head?_cons, beq_eq_false_iff_ne]
      rintro ⟨⟩
      exact absurd hc (by decide)
  rw [Code.isListType, propertyType]
  split
  · next hlist =>
    rw [hlist, getLast?_toList_append (c := ']') _ (by decide), String.append_assoc,
      String.toList_append]
    rfl
  · next hnot =>
    rw [Bool.eq_false_iff.2 hnot]
    split
    · rw [hhead, Bool.false_and]
    · rw [← String.append_empty (s := f.elementType s), hhead, Bool.false_and]

/-- Only a property that may be nil has a type with a question mark. -/
theorem isOptionalType_type : Code.isOptionalType (f.propertyType s) = f.isOptional := by
  rw [Code.isOptionalType, propertyType]
  split
  · next hlist =>
    rw [isOptional_of_isList hlist, getLast?_toList_append (c := ']') _ (by decide)]
    rfl
  · split
    · next hoptional =>
      rw [hoptional, getLast?_toList_append (c := '?') _ (by decide)]
      rfl
    · next hnot =>
      rw [Bool.eq_false_iff.2 hnot, beq_eq_false_iff_ne]
      intro hlast
      exact absurd (h.element.mem (List.mem_of_getLast? hlast)) (by decide)

theorem space_not_mem_escaped : ' ' ∉ (Swift.escaped f.name).toList := fun hmem =>
  absurd (h.allOf_escaped.mem hmem) (by decide)

theorem space_not_mem_name : ' ' ∉ f.name.toList := fun hmem =>
  absurd (h.name.mem hmem) (by decide)

theorem allOf_local : AllOf isName (Swift.readLocal f) := Swift.allOf_readLocal h.name

end Field.Spelled

namespace Swift
open Code
variable {s : Schema} {f : Field} {fields : List Field} {d : Declaration}

/-- The property of a field. -/
def propertyOf (s : Schema) (f : Field) : Property :=
  ⟨f.isObjcVisible, escaped f.name, f.propertyType s⟩

/-- The line of a property is read back with its name, its type and its visibility. -/
theorem member?_property (h : f.Spelled s) :
    member? (.leaf (property s f)) = some (.property (propertyOf s f)) := by
  have hcolon : ':' ∉ (escaped f.name).toList := fun hmem =>
    absurd (h.allOf_escaped.mem hmem) (by decide)
  have htext : property s f =
      objc f.isObjcVisible ++ "public let " ++ (escaped f.name ++ (": " ++ f.propertyType s)) := by
    simp only [property, toString_text, String.append_assoc]
  have hcut : cut? ':' ": " (escaped f.name ++ (": " ++ f.propertyType s)).toList =
      some (escaped f.name, f.propertyType s) :=
    cut?_eq (by decide) hcolon _
  have hdeclared : declared? (property s f) = some (propertyOf s f) := by
    rw [declared?, htext, visible?_eq (by decide)]
    simp only [Option.bind_eq_bind, Option.bind_some, hcut]
    rfl
  rw [member?, Block.leaf, hdeclared]
  rfl

/-- The initializer for properties: it takes one parameter for each of them, sets them from
these, and can be seen from Objective-C if they all can. -/
def initializerOf (s : Schema) (fields : List Field) : Initializer :=
  let properties := fields.map (propertyOf s)
  ⟨properties.all (·.visible), properties.map fun p => (p.name, p.type),
    fields.map fun f => (f.name, escaped f.name)⟩

theorem initializer?_eq {parameters : String} {labels : List (String × String)}
    (h : labelled? parameters.toList = some labels) (visible : Bool) (inner : List Block) :
    initializer? ⟨objc visible ++ "public init(" ++ (parameters ++ ") \x7b"), inner⟩ =
      some ⟨visible, labels, inner.filterMap (assigned? "self." ·.head)⟩ := by
  have hinside : between? "" ") \x7b" (.ofList (parameters ++ ") \x7b").toList) = some parameters :=
    between?_eq (by rw [String.ofList_toList, String.empty_append])
  rw [initializer?, visible?_eq (by decide)]
  simp only [Option.some_or, Option.bind_eq_bind, Option.bind_some, hinside, h]
  rfl

/-- An initializer is read back with its labels and what it assigns. -/
theorem member?_initializer {parameters : String} {labels : List (String × String)}
    (h : labelled? parameters.toList = some labels) (visible : Bool) (inner : List Block) :
    member? ⟨objc visible ++ "public " ++ call "init" parameters ++ " \x7b", inner⟩ =
      some (.initializer ⟨visible, labels, inner.filterMap (assigned? "self." ·.head)⟩) := by
  have hhead : objc visible ++ "public " ++ call "init" parameters ++ " \x7b" =
      objc visible ++ "public init(" ++ (parameters ++ ") \x7b") := by
    have hwords : "public init(" = "public " ++ "init" ++ "(" ∧ ") \x7b" = ")" ++ " \x7b" := by
      decide
    rw [hwords.1, hwords.2, call]
    simp only [String.append_assoc]
  have hlet : ∀ start ∈ letStarts,
      clash start.toList (objc visible ++ "public init(").toList = true := by
    cases visible <;> decide
  rw [hhead, member?, declared?_of_clash fun start hstart => clash_start (hlet start hstart) _,
    initializer?_eq h]
  rfl

/-- The member that a block is, in a list. -/
abbrev memberOf (b : Block) : List Member := (member? b).toList

theorem memberOf_close : memberOf (.leaf "\x7d") = [] := by decide

open Script (Nested Gathers)

section
variable {lead : String} (h : ∀ start ∈ memberStarts, clash start.toList lead.toList = true)
include h

theorem no_member_line (rest : String) : Gathers memberOf [.line (lead ++ rest)] [] :=
  .line (congrArg (·.toList) (member?_of_lead [] h rest))

theorem no_member_braced (rest : String) {body : Script} (hbody : Nested body) :
    Gathers memberOf (Script.braced (lead ++ rest) body) [] :=
  .braced_of_lead memberOf_close
    (fun rest inner => congrArg (·.toList) (member?_of_lead inner h rest)) rest hbody

end

/-- The properties of a message are read back in the order of its fields. -/
theorem members_properties (h : ∀ f ∈ fields, f.Spelled s) :
    Gathers memberOf (properties s fields)
      (fields.map fun f => .property (propertyOf s f)) := by
  have hblank : Gathers memberOf (if fields.isEmpty then [] else [.blank]) [] := by
    split
    · exact .nil
    · exact .blank
  have hlines : Gathers memberOf (fields.map fun f => .line (property s f))
      (fields.flatMap fun f => [.property (propertyOf s f)]) :=
    .map_line fun f hf => congrArg (·.toList) (member?_property (h f hf))
  refine (hlines.append hblank).of_eq ?_
  rw [List.append_nil, ← List.map_eq_flatMap]

/-- And its initializer takes and assigns each of them. -/
theorem members_initializer (h : ∀ f ∈ fields, f.Spelled s) :
    Gathers memberOf (initializer s fields) [.initializer (initializerOf s fields)] := by
  rw [initializer]
  split
  · next hempty =>
    have hmember : memberOf ⟨"@objc public override init() \x7b", []⟩ =
        [.initializer ⟨true, [], []⟩] := by
      decide
    rw [List.isEmpty_iff.1 hempty]
    refine ((Gathers.braced memberOf_close .nil ?_).append .blank).of_eq (List.append_nil _)
    rw [Script.blocks_nil]
    exact hmember
  · obtain ⟨hbody, hblocks⟩ := Nested.map_line fields fun f =>
      "self." ++ f.name ++ " = " ++ escaped f.name
    have hlabels : labelled?
        (commas (fields.map fun f => escaped f.name ++ ": " ++ f.propertyType s)).toList =
        some (fields.map fun f => (escaped f.name, f.propertyType s)) :=
      labelled?_commas (fun f hf => ⟨(h f hf).allOf_escaped, (h f hf).escaped_ne⟩) fun f hf hmem =>
        absurd ((h f hf).token_type.mem hmem) (by decide)
    have hassigned : (fields.map fun f =>
          Block.leaf ("self." ++ f.name ++ " = " ++ escaped f.name)).filterMap
        (assigned? "self." ·.head) = fields.map fun f => (f.name, escaped f.name) :=
      filterMap_map_eq fun f hf => assigned?_eq (h f hf).space_not_mem_name _
        (by simp only [Block.leaf, String.append_assoc])
    have hvisible : (fields.map (propertyOf s)).all (·.visible) = fields.all (·.isObjcVisible) :=
      List.all_map ..
    simp only [toString_text]
    refine ((Gathers.braced memberOf_close hbody ?_).append .blank).of_eq (List.append_nil _)
    rw [memberOf, hblocks, member?_initializer hlabels, hassigned, initializerOf, hvisible,
      List.map_map]
    rfl

end Swift
end SwiftWrap
