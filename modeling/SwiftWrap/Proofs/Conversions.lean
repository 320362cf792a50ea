import SwiftWrap.Proofs.Members

/-! The two conversions of a wrapper class, statement by statement.

`readsOf` says what is to be done to read a field from the wire, and `buildsOf` what is to be
done to build it for the wire, from the type of its property. The statements that are written
do exactly that, field after field (`members_parsers`, `members_builder`). -/
namespace SwiftWrap.Swift
open Text Code
open Script (Nested Gathers)
variable {s : Schema} {f : Field} {d : Declaration}

/-! ### From the wire -/

/-- A text that starts otherwise takes nothing from the wire. -/
theorem taken?_of_clash {lead text : String} (h : clash lead.toList text.toList = true) :
    taken? lead text = none := by
  rw [taken?, assigned?_of_clash h]
  rfl

/-- An assignment behind its lead is read as what it assigns and the field it reads. -/
theorem taken?_eq {lead into value field text : String} (hinto : ' ' ∉ into.toList)
    (hvalue : partOf? "proto" value = some field)
    (h : text = lead ++ (into ++ (" = " ++ value))) : taken? lead text = some (into, field) := by
  rw [taken?, assigned?_eq hinto value h]
  simp only [Option.bind_eq_bind, Option.bind_some, hvalue]
  rfl

/-- What the statements begin with that are read. -/
def readStarts : List String :=
  ["guard proto.has", "let ", "if proto.has", "for item in proto."]

/-- A line that starts like no step of reading is none. -/
theorem readSteps_of_clash {text : String}
    (h : ∀ start ∈ readStarts, clash start.toList text.toList = true) (inner : List Block) :
    readSteps ⟨text, inner⟩ = [] := by
  simp only [readStarts, List.forall_mem_cons] at h
  obtain ⟨hguard, hlet, hif, hfor, -⟩ := h
  rw [readSteps, between?_eq_none (after?_of_clash hguard), taken?_of_clash hlet,
    between?_eq_none (after?_of_clash hif), between?_eq_none (after?_of_clash hfor)]
  rfl

/-- The start of a line is enough to tell, whatever follows it. -/
theorem readSteps_of_lead {lead : String}
    (h : ∀ start ∈ readStarts, clash start.toList lead.toList = true) (rest : String)
    (inner : List Block) : readSteps ⟨lead ++ rest, inner⟩ = [] :=
  readSteps_of_clash (fun start hstart => clash_start (h start hstart) rest) inner

/-- The check of a required field is read back with the flag it asks for. -/
theorem readSteps_guard (flag : String) (inner : List Block) :
    readSteps ⟨"guard proto.has" ++ flag ++ " else" ++ " \x7b", inner⟩ = [.guards flag] := by
  have hflag : between? "guard proto.has" " else \x7b"
      ("guard proto.has" ++ (flag ++ (" else" ++ " \x7b"))) = some flag :=
    between?_eq (String.append_assoc ..).symm
  rw [String.append_assoc, String.append_assoc, readSteps, hflag,
    taken?_of_clash (clash_start (by decide) _),
    between?_eq_none (after?_of_clash (clash_start (by decide) _)),
    between?_eq_none (after?_of_clash (clash_start (by decide) _))]
  rfl

/-- A field that is read unconditionally. -/
theorem readSteps_let {into value field : String} (hinto : ' ' ∉ into.toList)
    (hvalue : partOf? "proto" value = some field) :
    readSteps (.leaf ("let " ++ into ++ " = " ++ value)) = [.reads none into field] := by
  have htaken : taken? "let " ("let " ++ (into ++ (" = " ++ value))) = some (into, field) :=
    taken?_eq hinto hvalue rfl
  rw [String.append_assoc, String.append_assoc, Block.leaf, readSteps, htaken,
    between?_eq_none (after?_of_clash (clash_start (by decide) _)),
    between?_eq_none (after?_of_clash (clash_start (by decide) _)),
    between?_eq_none (after?_of_clash (clash_start (by decide) _))]
  rfl

/-- A field that is read if the wire has it, into a variable that is nil before. -/
theorem readSteps_if {into value field : String} (hinto : ' ' ∉ into.toList)
    (hvalue : partOf? "proto" value = some field) (flag : String) :
    readSteps ⟨"if proto.has" ++ flag ++ " \x7b", [.leaf (into ++ " = " ++ value)]⟩ =
      [.reads (some flag) into field] := by
  have hflag : between? "if proto.has" " \x7b" ("if proto.has" ++ (flag ++ " \x7b")) = some flag :=
    between?_eq (String.append_assoc ..).symm
  have htaken : taken? "" (into ++ " = " ++ value) = some (into, field) :=
    taken?_eq hinto hvalue (by rw [String.empty_append, String.append_assoc])
  rw [String.append_assoc, readSteps, hflag,
    between?_eq_none (after?_of_clash (clash_start (by decide) _)),
    taken?_of_clash (clash_start (by decide) _),
    between?_eq_none (after?_of_clash (clash_start (by decide) _))]
  simp [Block.leaf, htaken]

/-- A list that is converted item by item. -/
theorem readSteps_for {text into : String} (h : appended? text = some into) (field : String) :
    readSteps ⟨"for item in " ++ ("proto." ++ field) ++ " \x7b", [.leaf text]⟩ =
      [.reads none into field] := by
  have hfield : between? "for item in proto." " \x7b"
      ("for item in " ++ ("proto." ++ (field ++ " \x7b"))) = some field :=
    between?_eq (by simp only [String.append_assoc]; rfl)
  rw [String.append_assoc, String.append_assoc, readSteps, hfield,
    between?_eq_none (after?_of_clash (clash_start (by decide) _)),
    taken?_of_clash (clash_start (by decide) _),
    between?_eq_none (after?_of_clash (clash_start (by decide) _))]
  simp [Block.leaf, h]

/-- What a line appends to is read off the text in front of the call. -/
theorem appended?_eq {text list : String} (more : String) {rest : List Char}
    (hlist : '.' ∉ list.toList)
    (hargument : argument text = "item".toList ++ rest)
    (htext : text = list ++ (".append(" ++ more)) : appended? text = some list := by
  have hcut : cut? '.' ".append(" text.toList = some (list, more) := by
    rw [htext]
    exact cut?_eq (by decide) hlist more
  rw [appended?, hcut, hargument]
  simp only [Option.bind_eq_bind, Option.bind_some, after?_eq_some_iff.2 rfl]
  rfl

theorem partOf?_member (owner : String) (howner : '(' ∉ owner.toList) (h : f.Spelled s) :
    partOf? owner (owner ++ "." ++ f.name) = some f.name := by
  refine partOf?_eq "" h.name (stops_nil _) ?_
  rw [argument_of_not_mem ?_, String.append_empty]
  simp [howner, not_open h.filler_name.quiet]

/-- What is read of a field, converted or not, names the field. -/
theorem partOf?_wrapped (h : f.Spelled s) :
    partOf? "proto" (wrapped s f ("proto." ++ f.name)) = some f.name := by
  rcases wrapped_cases s f with ⟨-, hwrapped⟩ | ⟨ref, -, lead, -, hwrapped⟩
  · rw [hwrapped]
    exact partOf?_member "proto" (by decide) h
  · have hcall : lead ++ call ref ("proto." ++ f.name) =
        (lead ++ ref) ++ ("(" ++ ("proto." ++ f.name ++ ")")) := by
      simp only [call, String.append_assoc]
    rw [hwrapped, hcall]
    refine partOf?_eq ")" h.name (stops_cons.2 (by decide)) ?_
    rw [argument_append ?_, String.append_assoc]
    · rfl
    · simp [not_open h.filler_name.quiet]

theorem readSteps_close : readSteps (.leaf "\x7d") = [] := readSteps_of_clash (by decide) []

/-- Only a required field is checked for. -/
theorem reads_requiredGuard (error : String) (d : Declaration) (f : Field) :
    Gathers readSteps (requiredGuard error d f)
      (if f.cardinality = some .required then [.guards (capitalized f.name)] else []) := by
  rw [requiredGuard]
  split
  · exact .braced readSteps_close (.line _) (readSteps_guard ..)
  · exact .nil

theorem appended?_item {list : String} (hlist : '.' ∉ list.toList) {tail : String}
    (htail : '(' ∉ tail.toList) :
    appended? (call (list ++ ".append") ("item" ++ tail)) = some list := by
  have htext : call (list ++ ".append") ("item" ++ tail) =
      (list ++ ".append") ++ ("(" ++ ("item" ++ (tail ++ ")"))) := by
    simp only [call, String.append_assoc]
  have hargument : argument (call (list ++ ".append") ("item" ++ tail)) =
      "item".toList ++ (tail ++ ")").toList := by
    rw [htext, argument_append (by simp [htail]), String.toList_append]
  exact appended?_eq _ hlist hargument (htext.trans (String.append_assoc ..))

theorem appended?_converted {list : String} (hlist : '.' ∉ list.toList) (lead ref : String) :
    appended? (call (list ++ ".append") (lead ++ call ref "item")) = some list := by
  have hargument : argument (call (list ++ ".append") (lead ++ call ref "item")) =
      "item".toList ++ "))".toList := by
    have htext : call (list ++ ".append") (lead ++ call ref "item") =
        (list ++ ".append" ++ "(" ++ lead ++ ref) ++ ("(" ++ "item))") := by
      simp only [call, String.append_assoc]
      rfl
    rw [htext, argument_append (by decide)]
    rfl
  refine appended?_eq (lead ++ call ref "item" ++ ")") hlist hargument ?_
  have hopen : ".append(" = ".append" ++ "(" := by decide
  rw [hopen]
  simp only [call, String.append_assoc]

/-- **Each field is read once**, into its own variable, and behind a check of its flag if it is
optional. -/
theorem reads_readField (h : f.Spelled s) : Gathers readSteps (readField s f)
    [.reads (if f.isOptional then some (capitalized f.name) else none) (readLocal f) f.name] := by
  have hvar (text : String) : Gathers readSteps [.line ("var " ++ text)] [] :=
    .line (readSteps_of_lead (by decide) text [])
  have hspace : ' ' ∉ (escaped f.name).toList := h.space_not_mem_escaped
  rw [readField]
  simp only [toString_text]
  split
  · next hconverted =>
    obtain ⟨hlist, -⟩ := Bool.and_eq_true_iff.1 hconverted
    obtain ⟨ref, href⟩ := exists_reads (s := s) hconverted
    have hdot : '.' ∉ (readLocal f).toList := fun hmem =>
      absurd (h.allOf_local.mem hmem) (by decide)
    rcases wrapped_cases s f with ⟨hnil, -⟩ | ⟨ref, -, lead, -, hwrapped⟩
    · simp [hnil] at href
    rw [Field.isOptional_of_isList hlist, hwrapped, String.append_assoc, String.append_assoc,
      String.append_assoc]
    refine Gathers.cons (hvar _) (.braced readSteps_close (.line _) ?_)
    rw [Script.blocks_line]
    exact readSteps_for (appended?_converted hdot lead ref) f.name
  · next hplain =>
    rw [readLocal, if_neg hplain]
    split
    · next hlist =>
      rw [Field.isOptional_of_isList hlist]
      exact .line (readSteps_let hspace (partOf?_member "proto" (by decide) h))
    · split
      · rw [String.append_assoc, String.append_assoc, String.append_assoc]
        refine Gathers.cons (hvar _) (.braced readSteps_close (.line _) ?_)
        rw [Script.blocks_line]
        exact readSteps_if hspace (partOf?_wrapped h) (capitalized f.name)
      · exact .line (readSteps_let hspace (partOf?_wrapped h))

/-- What is done to read a field: a guard if the field must be there, and one value, under a
condition if and only if the type of its property is `T?`. -/
def readsOf (s : Schema) (f : Field) : List ReadStep :=
  (if f.cardinality = some .required then [.guards (capitalized f.name)] else []) ++
    [.reads (if isOptionalType (f.propertyType s) then some (capitalized f.name) else none)
      (readLocal f) f.name]

/-- The function that reads the fields of a message. -/
def parserOf (s : Schema) (fields : List Field) : Parser :=
  ⟨fields.flatMap (readsOf s), fields.map fun f => (f.name, readLocal f)⟩

/-- A function that reads a message is its steps and the labels of the call at its end. -/
theorem parser?_eq {inner : List Block} {steps : List ReadStep} {path arguments : String}
    {labels : List (String × String)} (hsteps : inner.flatMap readSteps = steps)
    (hlast : inner.getLast? = some (.leaf ("return " ++ call path arguments)))
    (hpath : '(' ∉ path.toList) (hlabels : labelled? arguments.toList = some labels)
    (rest : String) :
    parser? ⟨"fileprivate class func parseProto(" ++ rest, inner⟩ = some ⟨steps, labels⟩ := by
  have hcall : between? "return " ")" ("return " ++ call path arguments) =
      some (path ++ ("(" ++ arguments)) :=
    between?_eq (by simp only [call, String.append_assoc])
  have hcut : cut? '(' "(" (path ++ ("(" ++ arguments)).toList = some (path, arguments) :=
    cut?_eq (by decide) hpath arguments
  rw [parser?, after?_eq_some_iff.2 (String.toList_append ..)]
  simp only [Option.bind_eq_bind, Option.bind_some, hlast, Block.leaf, hcall, hcut, hlabels, hsteps]
  rfl

theorem member?_parse {inner : List Block} {parser : Parser} {rest : String}
    (h : parser? ⟨"fileprivate class func parseProto(" ++ rest, inner⟩ = some parser) :
    member? ⟨"fileprivate class func parseProto(" ++ rest, inner⟩ = some (.parser parser) := by
  have hlet : ∀ start ∈ letStarts,
      clash start.toList "fileprivate class func parseProto(".toList = true := by decide
  have hinit : ∀ start ∈ initStarts,
      clash start.toList "fileprivate class func parseProto(".toList = true := by decide
  rw [member?, declared?_of_clash fun start hstart => clash_start (hlet start hstart) rest,
    initializer?_of_clash inner fun start hstart => clash_start (hinit start hstart) rest, h]
  rfl

/-- The fields of a message are read in their order, each behind its check. -/
theorem reads_fields (id : Nat) (d : Declaration) (hfields : ∀ f ∈ d.fields, f.Spelled s) :
    Gathers readSteps (d.fields.flatMap fun f =>
        requiredGuard (errorRef s id) d f ++ readField s f ++ [.blank])
      (d.fields.flatMap (readsOf s)) := by
  refine .flatMap fun f hf => ?_
  have hread := reads_readField (hfields f hf)
  rw [← (hfields f hf).isOptionalType_type] at hread
  exact (((reads_requiredGuard ..).append hread).append .blank).of_eq (List.append_nil _)

/-- The function that reads a message reads its fields and ends with a call that takes them. -/
theorem members_parseProto (hd : d.Spelled) (hfields : ∀ f ∈ d.fields, f.Spelled s)
    {body : Script} (hbody : Gathers readSteps body (d.fields.flatMap (readsOf s))) :
    Gathers memberOf
      (Script.braced ("fileprivate class func parseProto(_ proto: " ++ d.names.wire ++
          ") throws -> " ++ d.names.path)
        (body ++ [.line ("return " ++ call d.names.path
          (commas (d.fields.map fun f => f.name ++ ": " ++ readLocal f)))]))
      [.parser (parserOf s d.fields)] := by
  generalize harguments : commas (d.fields.map fun f => f.name ++ ": " ++ readLocal f) = arguments
  have hlabels :
      labelled? arguments.toList = some (d.fields.map fun f => (f.name, readLocal f)) := by
    rw [← harguments]
    exact labelled?_commas
      (fun f hf => ⟨(hfields f hf).name.mono fun _ => isName_of_isLetter, (hfields f hf).name_ne⟩)
      fun f hf hmem => absurd ((hfields f hf).allOf_local.mem hmem) (by decide)
  have hreturn : Gathers readSteps [.line ("return " ++ call d.names.path arguments)] [] :=
    .line (readSteps_of_lead (by decide) _ [])
  have hall := hbody.append hreturn
  have hlast :
      (Script.blocks (body ++ [.line ("return " ++ call d.names.path arguments)])).getLast? =
        some (.leaf ("return " ++ call d.names.path arguments)) := by
    rw [hbody.nested.blocks_append (.line _), Script.blocks_line, List.getLast?_concat]
  have hwords : "fileprivate class func parseProto(_ proto: " =
      "fileprivate class func parseProto(" ++ "_ proto: " := by
    decide
  refine .braced memberOf_close hall.nested ?_
  rw [memberOf, hwords, String.append_assoc, String.append_assoc, String.append_assoc,
    String.append_assoc, member?_parse (parser?_eq hall.found hlast
      (not_open hd.filler_path.quiet) hlabels _), List.append_nil]
  rfl

/-- Of the two functions that read a message, one does it field by field. -/
theorem members_parsers (id : Nat) (hd : d.Spelled) (hfields : ∀ f ∈ d.fields, f.Spelled s) :
    Gathers memberOf (parsers s id d) [.parser (parserOf s d.fields)] := by
  have hobjc : memberOf (.leaf "@objc") = [] := by decide
  have hdata (text : String) : Gathers memberOf
      (Script.braced ("public class func parseData(_ serializedData: Data) throws -> " ++
        d.names.path) [.line text, .line "return try parseProto(proto)"]) [] :=
    no_member_braced (by decide) _ ((Nested.line _).cons (.line _))
  rw [parsers]
  simp only [toString_text]
  exact ((Gathers.cons (.line hobjc) (hdata _)).append
    (.cons .blank (members_parseProto hd hfields (reads_fields id d hfields)))).append .blank

/-! ### To the wire -/

theorem buildSteps_of_lead {lead : String}
    (h : ∀ start ∈ ["builder.", "if let ", "for item in self."],
      clash start.toList lead.toList = true) (rest : String) (inner : List Block) :
    buildSteps ⟨lead ++ rest, inner⟩ = [] := by
  simp only [List.forall_mem_cons] at h
  obtain ⟨hset, hif, hfor, -⟩ := h
  rw [buildSteps, assigned?_of_clash (clash_start hset rest),
    between?_eq_none (after?_of_clash (clash_start hif rest)),
    between?_eq_none (after?_of_clash (clash_start hfor rest))]
  rfl

/-- An assignment to the builder is read back with its field and what it comes from. -/
theorem buildSteps_set {field value : String} (hfield : ' ' ∉ field.toList) :
    buildSteps (.leaf ("builder." ++ field ++ " = " ++ value)) =
      [.sets false field ((partOf? "self" value).getD value)] := by
  have hset : assigned? "builder." ("builder." ++ (field ++ (" = " ++ value))) =
      some (field, value) :=
    assigned?_eq hfield value rfl
  rw [String.append_assoc, String.append_assoc, Block.leaf, buildSteps, hset,
    between?_eq_none (after?_of_clash (clash_start (by decide) _)),
    between?_eq_none (after?_of_clash (clash_start (by decide) _))]
  rfl

/-- A property that is handed over unless it is nil. -/
theorem buildSteps_if {name field : String} (hname : ' ' ∉ name.toList)
    (hfield : ' ' ∉ field.toList) (property tail : String) :
    buildSteps ⟨"if let " ++ name ++ " = self." ++ property ++ " \x7b",
        [.leaf ("builder." ++ field ++ " = " ++ (name ++ tail))]⟩ =
      [.sets true field property] := by
  have hbinding : between? "if let " " \x7b"
      ("if let " ++ (name ++ (" = self." ++ (property ++ " \x7b")))) =
      some (name ++ (" = self." ++ property)) :=
    between?_eq (by simp only [String.append_assoc])
  have hcut : cut? ' ' " = self." (name ++ (" = self." ++ property)).toList =
      some (name, property) :=
    cut?_eq (by decide) hname property
  have hset : assigned? "builder." ("builder." ++ field ++ " = " ++ (name ++ tail)) =
      some (field, name ++ tail) :=
    assigned?_eq hfield _ (by simp only [String.append_assoc])
  have hvalue : after? name.toList (name ++ tail).toList = some tail.toList :=
    after?_eq_some_iff.2 (String.toList_append ..)
  rw [String.append_assoc, String.append_assoc, String.append_assoc, buildSteps, hbinding,
    assigned?_of_clash (clash_start (by decide) _),
    between?_eq_none (after?_of_clash (clash_start (by decide) _))]
  simp only [Block.leaf, Option.bind_some, hcut, Option.toList_some, List.flatMap_singleton,
    List.filterMap_cons, List.filterMap_nil, Option.bind_eq_bind, hset, hvalue]
  rfl

/-- A list that is converted back item by item. -/
theorem buildSteps_for {text into : String} (h : appended? text = some into) (property : String) :
    buildSteps ⟨"for item in self." ++ property ++ " \x7b", [.leaf text]⟩ =
      [.loops into property] := by
  have hproperty : between? "for item in self." " \x7b"
      ("for item in self." ++ (property ++ " \x7b")) = some property :=
    between?_eq (String.append_assoc ..).symm
  rw [String.append_assoc, buildSteps, hproperty, assigned?_of_clash (clash_start (by decide) _),
    between?_eq_none (after?_of_clash (clash_start (by decide) _))]
  simp [Block.leaf, h]

/-- What is done to build a field: a loop if and only if the type of its property is `[T]`, and one
value, under a condition if and only if that type is `T?`. -/
def buildsOf (s : Schema) (f : Field) : List BuildStep :=
  let isList := isListType (f.propertyType s)
  (if isList then [.loops (f.name ++ "Unwrapped") f.name] else []) ++
    [.sets (isOptionalType (f.propertyType s)) f.name
      (if isList then f.name ++ "Unwrapped" else f.name)]

/-- What is built of a property, converted or not, names the property. -/
theorem partOf?_unwrapped (h : f.Spelled s) :
    partOf? "self" (unwrapped s f ("self." ++ f.name)) = some f.name := by
  have hopen := not_open h.filler_name.quiet
  rcases unwrapped_cases s f with ⟨-, tail, htail, hunwrapped⟩ | ⟨ref, -, -, hunwrapped⟩
  · have hstops : Stops isLetter tail.toList ∧ '(' ∉ tail.toList := by
      rcases List.mem_pair.1 htail with rfl | rfl
      · exact ⟨stops_nil _, by decide⟩
      · exact ⟨stops_cons.2 (by decide), by decide⟩
    rw [hunwrapped]
    refine partOf?_eq tail h.name hstops.1 ?_
    rw [argument_of_not_mem (by simp [hopen, hstops.2]), String.append_assoc]
    rfl
  · have hcall : call ref ("self." ++ f.name) = ref ++ ("(" ++ ("self." ++ (f.name ++ ")"))) := by
      simp only [call, String.append_assoc]
    rw [hunwrapped, hcall]
    refine partOf?_eq ")" h.name (stops_cons.2 (by decide)) ?_
    rw [argument_append (by simp [hopen])]
    rfl

/-- A list that was built item by item is no part of anything. -/
theorem partOf?_list (h : f.Spelled s) : partOf? "self" (f.name ++ "Unwrapped") = none := by
  have hsuffix : AllOf isLetter "Unwrapped" := by decide
  have hletters : AllOf isLetter (f.name ++ "Unwrapped") := allOf_append.2 ⟨h.name, hsuffix⟩
  have hopen : '(' ∉ (f.name ++ "Unwrapped").toList := fun hmem =>
    absurd (hletters.mem hmem) (by decide)
  have hafter : after? ("self" ++ ".").toList (f.name ++ "Unwrapped").toList = none := by
    rw [Option.eq_none_iff_forall_ne_some]
    intro rest hrest
    rw [after?_eq_some_iff] at hrest
    have hdot : '.' ∈ (f.name ++ "Unwrapped").toList := hrest ▸ by simp
    exact absurd (hletters.mem hdot) (by decide)
  rw [partOf?, argument_of_not_mem hopen, hafter]
  rfl

theorem buildSteps_close : buildSteps (.leaf "\x7d") = [] := by decide

/-- A converted item is appended to the variable of its own field. -/
theorem appended?_unwrapped (h : f.Spelled s) :
    appended? (call (f.name ++ "Unwrapped" ++ ".append") (unwrapped s f "item")) =
      some (f.name ++ "Unwrapped") := by
  have hsuffix : AllOf isLetter "Unwrapped" := by decide
  have hdot : '.' ∉ (f.name ++ "Unwrapped").toList := fun hmem =>
    absurd ((allOf_append.2 ⟨h.name, hsuffix⟩ : AllOf isLetter (f.name ++ "Unwrapped")).mem hmem)
      (by decide)
  rcases unwrapped_cases s f with ⟨-, tail, htail, hunwrapped⟩ | ⟨ref, -, -, hunwrapped⟩
  · have hopen : '(' ∉ tail.toList := by
      rcases List.mem_pair.1 htail with rfl | rfl <;> decide
    rw [hunwrapped]
    exact appended?_item hdot hopen
  · rw [hunwrapped, ← String.empty_append (s := call ref "item")]
    exact appended?_converted hdot "" ref

/-- **Each field is handed to the builder once**, from the property of its own name. -/
theorem builds_buildField (h : f.Spelled s) :
    Gathers buildSteps (buildField s f) (buildsOf s f) := by
  have hset (value : String) : Gathers buildSteps [.line ("builder." ++ f.name ++ " = " ++ value)]
      [.sets false f.name ((partOf? "self" value).getD value)] :=
    .line (buildSteps_set h.space_not_mem_name)
  rw [buildField, buildsOf, h.isListType_type, h.isOptionalType_type]
  simp only [toString_text]
  split
  · next hlist =>
    have hvar : Gathers buildSteps
        [.line ("var " ++ f.name ++ "Unwrapped = [" ++ f.wireType s ++ "]()")] [] := by
      simp only [String.append_assoc]
      exact .line (buildSteps_of_lead (by decide) _ [])
    have hfor : Gathers buildSteps (Script.braced ("for item in self." ++ f.name)
        [.line (call (f.name ++ "Unwrapped" ++ ".append") (unwrapped s f "item"))])
        [.loops (f.name ++ "Unwrapped") f.name] := by
      refine .braced buildSteps_close (.line _) ?_
      rw [Script.blocks_line]
      exact buildSteps_for (appended?_unwrapped h) f.name
    have hbuilt : Gathers buildSteps
        [.line ("builder." ++ f.name ++ " = " ++ f.name ++ "Unwrapped")]
        [.sets false f.name (f.name ++ "Unwrapped")] := by
      have hlist := hset (f.name ++ "Unwrapped")
      rwa [partOf?_list h, ← String.append_assoc] at hlist
    have hname : f.name ++ "Unwrapped.append" = f.name ++ "Unwrapped" ++ ".append" := by
      rw [String.append_assoc]
      rfl
    rw [Field.isOptional_of_isList hlist, hname]
    exact (Gathers.cons hvar hfor).append hbuilt
  · split
    · next hoptional =>
      rcases unwrapped_cases s f with ⟨-, tail, -, hunwrapped⟩ | ⟨ref, -, hnot, -⟩
      · refine .braced buildSteps_close (.line _) ?_
        rw [Script.blocks_line, hunwrapped, hoptional]
        exact buildSteps_if h.space_not_mem_escaped h.space_not_mem_name f.name tail
      · rw [hnot] at hoptional
        cases hoptional
    · next hnot =>
      have hbuilt := hset (unwrapped s f ("self." ++ f.name))
      rw [partOf?_unwrapped h] at hbuilt
      rw [Bool.eq_false_iff.2 hnot]
      exact hbuilt

theorem member?_builder {inner : List Block} {steps : List BuildStep}
    (h : inner.flatMap builderSteps = steps) (rest : String) :
    member? ⟨"fileprivate var asProtobuf: " ++ rest, inner⟩ = some (.builder steps) := by
  have hlet : ∀ start ∈ letStarts,
      clash start.toList "fileprivate var asProtobuf: ".toList = true := by decide
  have hinit : ∀ start ∈ initStarts,
      clash start.toList "fileprivate var asProtobuf: ".toList = true := by decide
  have hbuilder : builder? ⟨"fileprivate var asProtobuf: " ++ rest, inner⟩ = some steps := by
    rw [builder?, after?_eq_some_iff.2 (String.toList_append ..), ← h]
    rfl
  rw [member?, declared?_of_clash fun start hstart => clash_start (hlet start hstart) rest,
    initializer?_of_clash inner fun start hstart => clash_start (hinit start hstart) rest,
    parser?_of_clash inner (clash_start (by decide) rest), hbuilder]
  rfl

/-- The steps stand inside the closure that is given the builder. -/
theorem builderSteps_with (wire : String) (inner : List Block) :
    builderSteps ⟨"let proto = " ++ wire ++ ".with " ++ "\x7b (builder) in", inner⟩ =
      inner.flatMap buildSteps := by
  have hwith : between? "let proto = " ".with \x7b (builder) in"
      ("let proto = " ++ wire ++ ".with " ++ "\x7b (builder) in") = some wire :=
    between?_eq (by rw [String.append_assoc]; rfl)
  rw [builderSteps, hwith, Option.toList_some, List.flatMap_singleton]

/-- The fields of a message are handed over in their order. -/
theorem members_builder (hfields : ∀ f ∈ d.fields, f.Spelled s) :
    Gathers memberOf (builder s d) [.builder (d.fields.flatMap (buildsOf s))] := by
  have hreturn (text : String) : Gathers builderSteps [.line ("return " ++ text)] [] := by
    refine .line ?_
    rw [builderSteps, Block.leaf,
      between?_eq_none (after?_of_clash (clash_start (by decide) text))]
    rfl
  have hbuilds : Gathers buildSteps (d.fields.flatMap fun f => buildField s f ++ [.blank])
      (d.fields.flatMap (buildsOf s)) :=
    .flatMap fun f hf =>
      ((builds_buildField (hfields f hf)).append .blank).of_eq (List.append_nil _)
  have hmember {body : Script}
      (hbody : Gathers builderSteps body (d.fields.flatMap (buildsOf s))) :
      Gathers memberOf
        (Script.braced ("fileprivate var asProtobuf: " ++ d.names.wire) body ++ [.blank])
        [.builder (d.fields.flatMap (buildsOf s))] := by
    refine (Gathers.append (.braced memberOf_close hbody.nested ?_) .blank).of_eq
      (List.append_nil _)
    rw [memberOf, String.append_assoc, member?_builder hbody.found]
    rfl
  rw [builder]
  simp only [toString_text]
  apply hmember
  split
  · next hempty =>
    rw [List.isEmpty_iff.1 hempty, String.append_assoc]
    exact hreturn _
  · have hwith : Gathers builderSteps ([.line ("let proto = " ++ d.names.wire ++ ".with " ++
        "\x7b (builder) in")] ++ (.indent ::
          ((d.fields.flatMap fun f => buildField s f ++ [.blank]) ++ [.strip]) ++ [.dedent]))
        (d.fields.flatMap (buildsOf s)) := by
      have hinner := (hbuilds.append .strip).of_eq (List.append_nil _)
      refine .block hinner.nested ?_
      rw [builderSteps_with, hinner.found]
    have hclose : Gathers builderSteps [.line "\x7d"] [] := .line (by decide)
    have hend : Gathers builderSteps [.line "return proto"] [] := hreturn "proto"
    have hall := (hwith.append (.cons hclose (.cons .blank hend))).of_eq (List.append_nil _)
    simpa using hall

end SwiftWrap.Swift
