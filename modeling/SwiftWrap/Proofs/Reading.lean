import SwiftWrap.Document.Draft
import SwiftWrap.Proofs.Forest

/-! The numbers of open blocks.

While blocks are open, parents and lists disagree: a declaration names its parent from its
opening line on, and is listed from its closing line on. `Draft.numbered` says what the schema is
meanwhile. Each open message stands behind everything that was opened before it, names the open
message around it, lists the blocks inside it that are closed, and has no fields yet; the
declarations of those blocks stand right behind it.

Every line keeps this (`Reader.step_numbered`): a reader does to its schema what the draft does
without numbers. So it does in every run (`Reader.foldlM_numbered`), and where all blocks are
closed the schema is that of a document (`Schema.ofLines_eq_toSchema`). -/
namespace SwiftWrap

/-- A change at the place behind some of a list. -/
theorem modify_append_cons (before after : List α) (a : α) (change : α → α) :
    (before ++ a :: after).modify before.length change = before ++ change a :: after := by
  induction before with
  | nil => rfl
  | cons b before ih =>
    rw [List.cons_append, List.length_cons, List.modify_succ_cons, ih, List.cons_append]

/-! ### What a reader holds while blocks are open -/

/-- The declaration of an open message. Its fields are put in at the closing line. -/
def DraftMessage.declaration (block : DraftMessage) (parent : Option Nat) (n : Nat) :
    Declaration :=
  ⟨block.name, parent, .message (block.nested.numbers (n + 1)) [], .none⟩

namespace Draft

/-- How many declarations there are: those of finished roots, open messages, and what is finished
inside these. -/
def count (roots : Forest) : List DraftMessage → Nat
  | [] => roots.size
  | block :: outer => count roots outer + 1 + block.nested.size

/-- Open messages under their numbers. -/
def opened (roots : Forest) : List DraftMessage → List OpenMessage
  | [] => []
  | block :: outer => ⟨count roots outer, block.name, block.fields⟩ :: opened roots outer

/-- The same declarations, in order of their numbers. -/
def declared (roots : Forest) : List DraftMessage → List Declaration
  | [] => roots.declarations none 0
  | block :: outer =>
    declared roots outer ++
      block.declaration (Reader.innermost (opened roots outer)) (count roots outer) ::
      block.nested.declarations (some (count roots outer)) (count roots outer + 1)

/-- The schema while messages are open. -/
def schema (package : Option String) (roots : Forest) (messages : List DraftMessage) : Schema :=
  ⟨package, roots.numbers 0, declared roots messages⟩

/-- What a reader holds where a draft holds its blocks without numbers. -/
def numbered : Draft → Reader
  | ⟨package, roots, .file⟩ => ⟨schema package roots [], .file⟩
  | ⟨package, roots, .message block outer⟩ =>
    ⟨schema package roots (block :: outer), .messages (opened roots (block :: outer))⟩
  | ⟨package, roots, .enumeration block owner outer⟩ =>
    ⟨(schema package roots (owner :: outer)).declare (some (count roots outer)) block.name
        .enumeration,
      .enumeration ⟨count roots (owner :: outer), block.name, block.items⟩
        ⟨count roots outer, owner.name, owner.fields⟩ (opened roots outer)⟩

variable (package : Option String) (roots : Forest)

@[simp] theorem length_declared (messages : List DraftMessage) :
    (declared roots messages).length = count roots messages := by
  induction messages with
  | nil => exact Forest.length_declarations ..
  | cons block outer ih =>
    rw [declared, List.length_append, List.length_cons, ih, Forest.length_declarations, count]
    omega

/-! ### Opening and closing -/

/-- A message that opens gets the next number. -/
theorem openMessage_schema (name : String) (outer : List DraftMessage) :
    Reader.openMessage (schema package roots outer) name (opened roots outer) =
      numbered ⟨package, roots, .message (.start name) outer⟩ := by
  have hlength : (schema package roots outer).declarations.length = count roots outer :=
    length_declared roots outer
  rw [Reader.openMessage, hlength]
  rfl

theorem openEnum_schema (name : String) (owner : DraftMessage) (outer : List DraftMessage) :
    Reader.openEnum (schema package roots (owner :: outer)) name
        ⟨count roots outer, owner.name, owner.fields⟩ (opened roots outer) =
      numbered ⟨package, roots, .enumeration ⟨name, []⟩ owner outer⟩ := by
  have hlength : (schema package roots (owner :: outer)).declarations.length =
      count roots (owner :: outer) := length_declared ..
  rw [Reader.openEnum, hlength]
  rfl

/-- The declaration of an open message is followed by those inside it. -/
theorem setFields_schema (block : DraftMessage) (outer : List DraftMessage) :
    (schema package roots (block :: outer)).setFields (count roots outer) block.fields =
      ⟨package, roots.numbers 0, declared roots outer ++
        block.finish.declarations (Reader.innermost (opened roots outer)) (count roots outer)⟩ := by
  rw [Schema.setFields, Schema.modify, schema, declared, ← length_declared roots outer,
    modify_append_cons, DraftMessage.finish, Forest.declarations, Forest.declarations,
    List.append_nil]
  rfl

theorem setItems_schema (name : String) (items : List Item) (messages : List DraftMessage)
    (parent : Option Nat) :
    ((schema package roots messages).declare parent name .enumeration).setItems
        (count roots messages) items =
      ⟨package, roots.numbers 0, declared roots messages ++
        (Forest.enumeration name items .nil).declarations parent (count roots messages)⟩ := by
  rw [Schema.setItems, Schema.modify, Schema.declare, schema, ← length_declared roots messages,
    modify_append_cons]
  rfl

end Draft

/-! ### Adoption -/

namespace Schema
variable {s : Schema} {id : Nat} {d : Declaration}

theorem adopt_of_root (hd : s.get? id = some d) (h : d.parent = none) :
    s.adopt id = { s with roots := s.roots ++ [id] } := by
  simp only [adopt, hd, h]

theorem adopt_of_parent (hd : s.get? id = some d) {parent : Nat} (h : d.parent = some parent) :
    s.adopt id = s.modify parent fun p => { p with body := p.body.addChild id } := by
  simp only [adopt, hd, h]

end Schema

namespace Draft
variable (package : Option String) (roots : Forest)

/-- A finished block that stands behind other declarations begins with its own. -/
theorem get?_finished {f : Forest} {messages : List DraftMessage}
    (h : f.numbers (count roots messages) = [count roots messages]) (parent : Option Nat) :
    ∃ d, (⟨package, roots.numbers 0, declared roots messages ++
        f.declarations parent (count roots messages)⟩ : Schema).get? (count roots messages) =
          some d ∧
      d.parent = parent := by
  have hfirst : ∃ d rest, f.declarations parent (count roots messages) = d :: rest ∧
      d.parent = parent := by
    cases f with
    | nil => cases h
    | message => exact ⟨_, _, rfl, rfl⟩
    | enumeration => exact ⟨_, _, rfl, rfl⟩
  obtain ⟨d, rest, hf, hparent⟩ := hfirst
  have hplace :
      (declared roots messages ++ d :: rest)[(declared roots messages).length]? = some d := by
    simp
  rw [length_declared, ← hf] at hplace
  exact ⟨d, hplace, hparent⟩

/-- A finished block at file scope becomes a root. -/
theorem adopt_root {f : Forest} (h : f.numbers roots.size = [roots.size]) :
    (⟨package, roots.numbers 0, declared roots [] ++ f.declarations none roots.size⟩ :
        Schema).adopt roots.size = schema package (roots ++ f) [] := by
  have hfirst : f.numbers (count roots []) = [count roots []] := h
  obtain ⟨d, hd, hparent⟩ := get?_finished package roots hfirst none
  rw [count] at hd
  rw [Schema.adopt_of_root hd hparent, schema, declared, declared, Forest.numbers_append,
    Forest.declarations_append, Nat.zero_add, h]

/-- A block that is nested in an open message stands behind those nested before. -/
theorem declared_nest {f : Forest} {owner : DraftMessage} {outer : List DraftMessage}
    (h : f.numbers (count roots (owner :: outer)) = [count roots (owner :: outer)]) :
    declared roots (owner.nest f :: outer) =
      declared roots outer ++
        ⟨owner.name, Reader.innermost (opened roots outer),
          .message (owner.nested.numbers (count roots outer + 1) ++
            [count roots (owner :: outer)]) [], .none⟩ ::
        (owner.nested.declarations (some (count roots outer)) (count roots outer + 1) ++
          f.declarations (some (count roots outer)) (count roots (owner :: outer))) := by
  have hnext : count roots outer + 1 + owner.nested.size = count roots (owner :: outer) := rfl
  rw [declared, DraftMessage.nest, DraftMessage.declaration, Forest.numbers_append,
    Forest.declarations_append, hnext, h]

/-- A finished block inside an open message is listed by it. -/
theorem adopt_nested {f : Forest} {owner : DraftMessage} {outer : List DraftMessage}
    (h : f.numbers (count roots (owner :: outer)) = [count roots (owner :: outer)]) :
    (⟨package, roots.numbers 0, declared roots (owner :: outer) ++
        f.declarations (some (count roots outer)) (count roots (owner :: outer))⟩ :
        Schema).adopt (count roots (owner :: outer)) =
      schema package roots (owner.nest f :: outer) := by
  obtain ⟨d, hd, hparent⟩ := get?_finished package roots h (some (count roots outer))
  rw [Schema.adopt_of_parent hd hparent, Schema.modify, schema, declared_nest roots h, declared,
    List.append_assoc, List.cons_append]
  have hplace := modify_append_cons (declared roots outer)
    (owner.nested.declarations (some (count roots outer)) (count roots outer + 1) ++
      f.declarations (some (count roots outer)) (count roots (owner :: outer)))
    (owner.declaration (Reader.innermost (opened roots outer)) (count roots outer))
    fun p => { p with body := p.body.addChild (count roots (owner :: outer)) }
  rw [length_declared] at hplace
  rw [hplace]
  rfl

/-! ### Lines -/

theorem closeMessage_numbered (block : DraftMessage) (outer : List DraftMessage) :
    Reader.closeMessage (schema package roots (block :: outer))
        ⟨count roots outer, block.name, block.fields⟩ (opened roots outer) =
      numbered (closeMessage ⟨package, roots, .file⟩ block outer) := by
  rw [Reader.closeMessage, setFields_schema]
  cases outer with
  | nil => exact congrArg (Reader.mk · _) (adopt_root package roots rfl)
  | cons owner outer => exact congrArg (Reader.mk · _) (adopt_nested package roots rfl)

theorem closeEnum_numbered (block : DraftEnum) (owner : DraftMessage)
    (outer : List DraftMessage) :
    Reader.closeEnum ((schema package roots (owner :: outer)).declare (some (count roots outer))
          block.name .enumeration)
        ⟨count roots (owner :: outer), block.name, block.items⟩
        ⟨count roots outer, owner.name, owner.fields⟩ (opened roots outer) =
      numbered ⟨package, roots, .message
        (owner.nest (.enumeration block.name block.items .nil)) outer⟩ := by
  rw [Reader.closeEnum, setItems_schema]
  exact congrArg (Reader.mk · _) (adopt_nested package roots rfl)

end Draft

namespace Reader
open Draft

theorem fileLine_numbered (package : Option String) (roots : Forest) (line : Line) :
    fileLine (Draft.schema package roots []) line =
      (Draft.fileLine ⟨package, roots, .file⟩ line).map numbered := by
  unfold fileLine Draft.fileLine
  cases FileStatement.read? line.text with
  | none => rfl
  | some statement =>
    cases statement with
    | ignored => rfl
    | package name => cases package <;> rfl
    | openMessage name => exact congrArg Except.ok (openMessage_schema package roots name [])

theorem messageLine_numbered (package : Option String) (roots : Forest) (block : DraftMessage)
    (outer : List DraftMessage) (line : Line) :
    messageLine (Draft.schema package roots (block :: outer))
        ⟨count roots outer, block.name, block.fields⟩ (opened roots outer) line =
      (Draft.messageLine ⟨package, roots, .message block outer⟩ block outer line).map numbered := by
  unfold messageLine Draft.messageLine
  cases MessageStatement.read? line.text with
  | none => rfl
  | some statement =>
    cases statement with
    | close => exact congrArg Except.ok (closeMessage_numbered package roots block outer)
    | openEnum name => exact congrArg Except.ok (openEnum_schema package roots name block outer)
    | openMessage name =>
      exact congrArg Except.ok (openMessage_schema package roots name (block :: outer))
    | field f =>
      simp only [OpenMessage.addField, DraftMessage.addField]
      cases f.addedTo block.fields block.name line.number <;> rfl

theorem enumLine_numbered (package : Option String) (roots : Forest) (block : DraftEnum)
    (owner : DraftMessage) (outer : List DraftMessage) (line : Line) :
    enumLine ((Draft.schema package roots (owner :: outer)).declare (some (count roots outer))
          block.name .enumeration)
        ⟨count roots (owner :: outer), block.name, block.items⟩
        ⟨count roots outer, owner.name, owner.fields⟩ (opened roots outer) line =
      (Draft.enumLine ⟨package, roots, .enumeration block owner outer⟩ block owner outer line).map
        numbered := by
  unfold enumLine Draft.enumLine
  cases EnumStatement.read? line.text with
  | none => rfl
  | some statement =>
    cases statement with
    | close => exact congrArg Except.ok (closeEnum_numbered package roots block owner outer)
    | item i =>
      simp only [OpenEnum.addItem, DraftEnum.addItem]
      cases i.addedTo block.items block.name line.number <;> rfl

/-- **A line does to a reader what it does to the draft without numbers**, errors included. -/
theorem step_numbered (d : Draft) (line : Line) :
    d.numbered.step line = (d.step line).map numbered := by
  obtain ⟨package, roots, blocks⟩ := d
  cases blocks with
  | file => exact fileLine_numbered package roots line
  | message block outer => exact messageLine_numbered package roots block outer line
  | enumeration block owner outer => exact enumLine_numbered package roots block owner outer line

/-- So do all lines of a run. -/
theorem foldlM_numbered (d : Draft) (lines : List Line) :
    lines.foldlM step d.numbered = (lines.foldlM Draft.step d).map numbered := by
  induction lines generalizing d with
  | nil => rfl
  | cons line rest ih =>
    rw [List.foldlM_cons, List.foldlM_cons, step_numbered]
    cases d.step line with
    | error problem => rfl
    | ok next => exact ih next

/-- Where all blocks are closed, the numbers are those of a document. -/
theorem finish_numbered (d : Draft) : d.numbered.finish = d.finish.map Document.toSchema := by
  obtain ⟨package, roots, blocks⟩ := d
  cases blocks <;> rfl

end Reader

/-- A line that the reader refuses ends the reading, whatever follows. -/
theorem Schema.ofLines_of_refused {before : List Line} {line : Line} {r : Reader}
    {problem : Problem} (hbefore : before.foldlM Reader.step Reader.start = .ok r)
    (h : r.step line = .error problem) (after : List Line) :
    ofLines (before ++ line :: after) = .error problem := by
  rw [ofLines, List.foldlM_append, hbefore]
  show (List.foldlM _ r (line :: after) >>= _) = _
  rw [List.foldlM_cons, h]
  rfl

/-- **Declaring at the opening lines and adopting at the closing lines numbers a document** in
the order of its declarations. Lines that are no document fail with the same problem. -/
theorem Schema.ofLines_eq_toSchema (lines : List Line) :
    ofLines lines = (Document.ofLines lines).map Document.toSchema := by
  have hrun := Reader.foldlM_numbered Draft.start lines
  have hstart : Draft.start.numbered = Reader.start := rfl
  rw [hstart] at hrun
  rw [ofLines, Document.ofLines, hrun]
  cases lines.foldlM Draft.step Draft.start with
  | error problem => rfl
  | ok d => exact Reader.finish_numbered d

end SwiftWrap
