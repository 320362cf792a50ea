import SwiftWrap.Command.Line
import SwiftWrap.Files.Tree
import Mathlib.Tactic.Common

/-! What a run does to files.

A command reads first, then works on what it has read, and writes last. So where reading
changes nothing, and a write changes one file or fails without effect (`Files.Laws`), a run
that fails has changed nothing at all, and one that succeeds has changed its output file and no
other (`Command.effects`).

The steps of a run are put together by one rule (`Careful.bind`): behind steps that only read,
a program is as careful as what is left of it. A directory as a value obeys the laws
(`FileTree.laws`). -/
namespace SwiftWrap

variable {σ Key α β : Type}

/-! ### Steps -/

/-- A step that changes nothing. -/
def Reads (x : ExceptT Failure (StateM σ) α) : Prop := ∀ s, (x.run s).2 = s

/-- A program that has changed nothing if it fails. -/
structure Careful (x : ExceptT Failure (StateM σ) α) (done : σ → α → σ → Prop) : Prop where
  failed : ∀ s e t, x.run s = (.error e, t) → t = s
  succeeded : ∀ s a t, x.run s = (.ok a, t) → done s a t

theorem run_bind (x : ExceptT Failure (StateM σ) α) (f : α → ExceptT Failure (StateM σ) β) (s : σ) :
    (x >>= f).run s = match x.run s with
      | (.ok a, t) => (f a).run t
      | (.error e, t) => (.error e, t) := by
  have hbind : (x >>= f).run s = match x.run s with
      | (r, t) => (ExceptT.bindCont f r : StateM σ _) t := rfl
  rw [hbind]
  obtain ⟨r, t⟩ := x.run s
  cases r <;> rfl

theorem run_lift (x : StateM σ α) (s : σ) :
    (liftM x : ExceptT Failure (StateM σ) α).run s = (.ok (x s).1, (x s).2) := rfl

namespace Reads

theorem pure (a : α) : Reads (Pure.pure a : ExceptT Failure (StateM σ) α) := fun _ => rfl

theorem throw (e : Failure) : Reads (MonadExcept.throw e : ExceptT Failure (StateM σ) α) :=
  fun _ => rfl

theorem lift {x : StateM σ α} (h : ∀ s, (x s).2 = s) :
    Reads (liftM x : ExceptT Failure (StateM σ) α) := h

theorem run_bind {x : ExceptT Failure (StateM σ) α} (h : Reads x)
    (f : α → ExceptT Failure (StateM σ) β) (s : σ) :
    (∃ e, x.run s = (.error e, s) ∧ (x >>= f).run s = (.error e, s)) ∨
      ∃ a, x.run s = (.ok a, s) ∧ (x >>= f).run s = (f a).run s := by
  have hs := h s
  rw [SwiftWrap.run_bind]
  cases hx : x.run s with
  | mk r t =>
    rw [hx] at hs
    cases hs
    cases r with
    | error e => exact .inl ⟨e, rfl, rfl⟩
    | ok a => exact .inr ⟨a, rfl, rfl⟩

theorem bind {x : ExceptT Failure (StateM σ) α} {f : α → ExceptT Failure (StateM σ) β}
    (hx : Reads x) (hf : ∀ a, Reads (f a)) : Reads (x >>= f) := by
  intro s
  rcases hx.run_bind f s with ⟨e, -, hrun⟩ | ⟨a, -, hrun⟩
  · rw [hrun]
  · rw [hrun]
    exact hf a s

end Reads

namespace Careful

theorem pure {a : α} {done : σ → α → σ → Prop} (h : ∀ s, done s a s) :
    Careful (Pure.pure a : ExceptT Failure (StateM σ) α) done where
  failed _ _ _ hrun := by cases hrun
  succeeded s _ _ hrun := by
    cases hrun
    exact h s

theorem throw {e : Failure} {done : σ → α → σ → Prop} :
    Careful (MonadExcept.throw e : ExceptT Failure (StateM σ) α) done where
  failed _ _ _ hrun := by
    cases hrun
    rfl
  succeeded _ _ _ hrun := by cases hrun

/-- Behind a step that changes nothing. -/
theorem bind {x : ExceptT Failure (StateM σ) α} {f : α → ExceptT Failure (StateM σ) β}
    {done : σ → β → σ → Prop} (hx : Reads x)
    (hf : ∀ a, Careful (f a) fun s b t => x.run s = (.ok a, s) → done s b t) :
    Careful (x >>= f) done where
  failed s e t h := by
    rcases hx.run_bind f s with ⟨e', -, hrun⟩ | ⟨a, -, hrun⟩
    · rw [hrun] at h
      cases h
      rfl
    · exact (hf a).failed s e t (hrun.symm.trans h)
  succeeded s b t h := by
    rcases hx.run_bind f s with ⟨e', -, hrun⟩ | ⟨a, ha, hrun⟩
    · rw [hrun] at h
      cases h
    · exact (hf a).succeeded s b t (hrun.symm.trans h) ha

/-- Behind a check. -/
theorem check {c : Prop} [Decidable c] {e : Failure} {f : Unit → ExceptT Failure (StateM σ) α}
    {done : σ → α → σ → Prop} (h : Careful (f ()) done) :
    Careful (if c then f () else MonadExcept.throw e >>= f) done := by
  split
  · exact h
  · exact throw

/-- In front of a result. -/
theorem map {x : ExceptT Failure (StateM σ) α} {done : σ → α → σ → Prop} {b : β}
    {done' : σ → β → σ → Prop} (hx : Careful x done) (h : ∀ s a t, done s a t → done' s b t) :
    Careful (x >>= fun _ => Pure.pure b) done' where
  failed s e t hrun := by
    rw [run_bind] at hrun
    split at hrun
    · cases hrun
    · next heq =>
      cases hrun
      exact hx.failed s e t heq
  succeeded s b t hrun := by
    rw [run_bind] at hrun
    split at hrun
    · next heq =>
      cases hrun
      exact h s _ t (hx.succeeded s _ t heq)
    · cases hrun

end Careful

theorem reads_inFile (file : String) (result : Except Problem α) :
    Reads (inFile file result : ExceptT Failure (StateM σ) α) := by
  cases result with
  | ok a => exact .pure a
  | error problem => exact .throw _

theorem run_inFile {file : String} {result : Except Problem α} {a : α} {s t : σ}
    (h : (inFile file result : ExceptT Failure (StateM σ) α).run s = (.ok a, t)) :
    result = .ok a := by
  cases result with
  | ok b =>
    cases h
    rfl
  | error problem => cases h

/-! ### Files -/

section
variable [Files (StateM σ)]

/-- A path has got a new content, and whatever file is not at the path has kept its own. -/
structure Files.Replaces (content : σ → Key → Option ByteArray) (s : σ) (path text : String)
    (t : σ) : Prop where
  read : (Files.read path : StateM σ _) t = (.ok text.toUTF8, t)
  others : ∃ file, content t file = some text.toUTF8 ∧
    ∀ other, other ≠ file → content t other = content s other

/-- Files that reading leaves alone, and of which a write replaces one or none. -/
structure Files.Laws (content : σ → Key → Option ByteArray) : Prop where
  present : ∀ path s, ((Files.present path : StateM σ _) s).2 = s
  directory : ∀ path s, ((Files.directory path : StateM σ _) s).2 = s
  read : ∀ path s, ((Files.read path : StateM σ _) s).2 = s
  failed : ∀ path text s e t, (Files.write path text : StateM σ _) s = (.error e, t) → t = s
  written : ∀ path text s t, (Files.write path text : StateM σ _) s = (.ok (), t) →
    Files.Replaces content s path text t

variable {content : σ → Key → Option ByteArray} (laws : Files.Laws content)
include laws

theorem reads_readText (path : String) :
    Reads (readText path : ExceptT Failure (StateM σ) String) := by
  refine .bind (.lift (laws.read path)) fun r => ?_
  cases r with
  | error e => exact .throw _
  | ok bytes =>
    dsimp only
    split
    · exact .pure _
    · exact .throw _

/-- Writing is the one step that changes files, and it changes none if it fails. -/
theorem careful_writeText (path text : String) :
    Careful (writeText path text : ExceptT Failure (StateM σ) Unit) fun s _ t =>
      Files.Replaces content s path text t := by
  have hrun (s : σ) : (writeText path text : ExceptT Failure (StateM σ) Unit).run s =
      (((Files.write path text : StateM σ _) s).1.mapError Failure.files,
        ((Files.write path text : StateM σ _) s).2) := by
    rw [writeText, run_bind, run_lift]
    cases ((Files.write path text : StateM σ _) s).1 <;> rfl
  refine ⟨fun s e t h => ?_, fun s _ t h => ?_⟩
  · rw [hrun] at h
    cases hwrite : (Files.write path text : StateM σ _) s with
    | mk r t' =>
      rw [hwrite] at h
      cases r with
      | error e' =>
        cases h
        exact laws.failed path text s e' _ hwrite
      | ok _ => cases h
  · rw [hrun] at h
    cases hwrite : (Files.write path text : StateM σ _) s with
    | mk r t' =>
      rw [hwrite] at h
      cases r with
      | error e' => cases h
      | ok _ =>
        cases h
        exact laws.written path text s _ hwrite

/-- Wrappers are written last, from a text that has been read and understood. -/
theorem careful_writeWrappers (input destination : String) (p : Prefixes) :
    Careful (writeWrappers input destination p : ExceptT Failure (StateM σ) String)
      fun s path t => path = joinPath destination p.fileName ∧ ∃ text code,
        (readText input : ExceptT Failure (StateM σ) String).run s = (.ok text, s) ∧
        Output.wrappers p text = .ok code ∧ Files.Replaces content s path code t := by
  refine .bind (.lift (laws.present input)) fun present => .check ?_
  refine .bind (.lift (laws.directory destination)) fun directory => .check ?_
  refine .bind (reads_readText laws input) fun text => ?_
  refine .bind (reads_inFile input _) fun code => ?_
  refine (careful_writeText laws _ code).map fun s _ t hwritten hcode htext _ _ => ?_
  exact ⟨rfl, text, code, htext, run_inFile hcode, hwritten⟩

end
end SwiftWrap

namespace SwiftWrap.Command

/-! ### Commands -/

/-- The file that a command reads. -/
def source : Command → String
  | generate directory file _ _ => joinPath directory file
  | dump input _ | format input _ => input

/-- What a command makes of a text. -/
def result : Command → String → Except Problem String
  | generate _ _ p _ => Output.wrappers p
  | dump _ p => Output.dump p
  | format _ _ => Output.fixedForm

/-- The file that a command writes. -/
def target? : Command → Option String
  | generate _ _ p destination => some (joinPath destination p.fileName)
  | dump .. => none
  | format _ output => output

/-- A command has done its work and no more: what it made of its source is in its target, if it
has one. -/
def Done {σ Key : Type} [Files (StateM σ)] (content : σ → Key → Option ByteArray)
    (command : Command) (s t : σ) : Prop :=
  ∃ text made, (readText command.source : ExceptT Failure (StateM σ) String).run s = (.ok text, s) ∧
    command.result text = .ok made ∧ match command.target? with
      | some path => Files.Replaces content s path made t
      | none => t = s

section
variable {σ Key : Type} [Files (StateM σ)] {content : σ → Key → Option ByteArray}
  (laws : Files.Laws content)
include laws

/-- So is whatever a command writes. -/
theorem careful_run (command : Command) :
    Careful (command.run : ExceptT Failure (StateM σ) String) fun s _ t =>
      command.Done content s t := by
  cases command with
  | generate directory file p destination =>
    refine (careful_writeWrappers laws (joinPath directory file) destination p).map ?_
    rintro s path t ⟨rfl, text, code, htext, hcode, hwritten⟩
    exact ⟨text, code, htext, hcode, hwritten⟩
  | dump input p =>
    refine .bind (reads_readText laws input) fun text => ?_
    refine .bind (reads_inFile input _) fun json => .pure fun s hjson htext => ?_
    exact ⟨text, json, htext, run_inFile hjson, rfl⟩
  | format input output =>
    refine .bind (reads_readText laws input) fun text => ?_
    refine .bind (reads_inFile input _) fun formatted => ?_
    cases output with
    | none =>
      refine .pure fun s hformatted htext => ?_
      exact ⟨text, formatted, htext, run_inFile hformatted, rfl⟩
    | some path =>
      refine (careful_writeText laws path formatted).map fun s _ t hwritten hformatted htext => ?_
      exact ⟨text, formatted, htext, run_inFile hformatted, hwritten⟩

omit laws in
/-- A run is that of its command, if its words stand for one. -/
theorem executeBy_of_command {reading : List String → Option Command} {words : List String}
    {command : Command} (h : reading words = some command) (s : σ) :
    (executeBy reading words : StateM σ Report) s =
      match (command.run : ExceptT Failure (StateM σ) String).run s with
      | (.ok output, t) => (⟨0, output, none⟩, t)
      | (.error failure, t) => (⟨1, "", some ("Error: " ++ failure.diagnostic)⟩, t) := by
  have hbind (x : StateM σ (Except Failure String)) (f : _ → StateM σ Report) :
      (x >>= f) s = f (x s).1 (x s).2 := rfl
  unfold executeBy
  simp only [h, hbind]
  cases (command.run : ExceptT Failure (StateM σ) String).run s with
  | mk r t => cases r <;> rfl

/-- However command lines are read, one that fails has changed nothing and printed nothing. -/
theorem executeBy_effects {reading : List String → Option Command} {words : List String}
    {s t : σ} {report : Report}
    (h : (executeBy reading words : StateM σ Report) s = (report, t)) :
    (report.exit ≠ 0 → t = s ∧ report.output = "") ∧
      (report.exit = 0 → ∃ command, reading words = some command ∧ command.Done content s t) := by
  cases hwords : reading words with
  | none =>
    have hexecute : (executeBy reading words : StateM σ Report) s = (⟨2, "", none⟩, s) := by
      rw [executeBy, hwords]
      rfl
    rw [hexecute] at h
    cases h
    exact ⟨fun _ => ⟨rfl, rfl⟩, fun hzero => absurd hzero (by decide)⟩
  | some command =>
    have hcareful := careful_run laws command
    rw [executeBy_of_command hwords] at h
    cases hrun : (command.run : ExceptT Failure (StateM σ) String).run s with
    | mk r t' =>
      rw [hrun] at h
      cases r with
      | ok output =>
        cases h
        refine ⟨fun hone => absurd rfl hone, fun _ => ?_⟩
        exact ⟨command, rfl, hcareful.succeeded s output _ hrun⟩
      | error failure =>
        cases h
        refine ⟨fun _ => ⟨?_, rfl⟩, fun hzero => absurd hzero (by simp)⟩
        exact hcareful.failed s failure _ hrun

end
end SwiftWrap.Command

namespace SwiftWrap

/-! ### Directories as values -/

namespace FileTree

/-- The content of the file at a location. -/
def contentAt (t : FileTree) (location : Location) : Option ByteArray := t.files.lookup location

/-- A place where a file can be written. -/
def Place.Takes (location : Location) : Place → Prop
  | .directory _ => False
  | .file inner _ | .vacant inner => inner = location

theorem contentAt_put_self (t : FileTree) (location : Location) (content : ByteArray) :
    (t.put location content).contentAt location = some content := by
  simp [contentAt, put]

/-- Files elsewhere are found where they were, without what was at a location. -/
theorem lookup_filter_ne {location other : Location} (h : other ≠ location)
    (files : List (Location × ByteArray)) :
    (files.filter (·.1 ≠ location)).lookup other = files.lookup other := by
  induction files with
  | nil => rfl
  | cons file files ih =>
    obtain ⟨inner, old⟩ := file
    by_cases hinner : inner = location
    · subst hinner
      rw [List.lookup_cons, beq_eq_false_iff_ne.2 h, List.filter_cons_of_neg (by simp), ih]
    · rw [List.filter_cons_of_pos (by simpa using hinner), List.lookup_cons, List.lookup_cons, ih]

theorem contentAt_put_of_ne (t : FileTree) {location other : Location} (h : other ≠ location)
    (content : ByteArray) : (t.put location content).contentAt other = t.contentAt other := by
  show List.lookup other ((location, content) :: t.files.filter (·.1 ≠ location)) = _
  rw [List.lookup_cons, beq_eq_false_iff_ne.2 h, lookup_filter_ne h]
  rfl

theorem placeAt_eq (t : FileTree) (location : Location) : t.placeAt location =
    if isAbove location || t.directories.contains location then .directory location
    else
      match t.contentAt location with
      | some content => .file location content
      | none => .vacant location := rfl

/-- A new file is where it was put, and every way to it is still open. -/
theorem follow_put {t : FileTree} {location start : Location} {names : List String} {place : Place}
    (h : t.follow start names = .ok place) (hplace : place.Takes location) (content : ByteArray) :
    (t.put location content).follow start names = .ok (.file location content) := by
  induction names generalizing start with
  | nil =>
    cases h
    cases hplace
  | cons name rest ih =>
    rw [follow] at h ⊢
    split at h
    · cases h
    · next hlimit =>
      have hdirectories : (t.put location content).directories = t.directories := rfl
      rw [if_neg hlimit, placeAt_eq, hdirectories]
      rw [placeAt_eq] at h
      by_cases hdirectory : (isAbove (enter start name) ||
          t.directories.contains (enter start name)) = true
      · rw [if_pos hdirectory] at h ⊢
        exact ih h
      · rw [if_neg hdirectory] at h ⊢
        -- What is not a directory is the end of the way.
        have hend : enter start name = location ∧ rest = [] := by
          cases hold : t.contentAt (enter start name) <;> simp only [hold] at h <;> split at h
          all_goals cases h
          all_goals exact ⟨hplace, ‹_›⟩
        rw [hend.1, contentAt_put_self, hend.2]
        rfl

theorem write_eq (path text : String) (t : FileTree) :
    (Files.write path text : StateM FileTree _) t = match t.target path with
      | .ok location => (.ok (), t.put location text.toUTF8)
      | .error e => (.error e, t) := by
  show (match t.target path with | .ok _ => _ | .error _ => _ : StateM FileTree _) t = _
  cases t.target path <;> rfl

/-- What can be written to a path can be read from it. -/
theorem read_put {t : FileTree} {path : String} {location : Location}
    (h : t.target path = .ok location) (content : ByteArray) :
    (t.put location content).read path = .ok content := by
  unfold target at h
  cases hsteps : steps path with
  | error e =>
    rw [hsteps] at h
    cases h
  | ok way =>
    rw [hsteps] at h
    by_cases hopen : endsOpen path = true
    · simp [bind, Except.bind, hopen] at h
    · cases hfollow : t.follow [] way with
      | error e => simp [bind, Except.bind, hopen, hfollow] at h
      | ok place =>
        have hplace : place.Takes location := by
          cases place <;> simp [bind, Except.bind, hopen, hfollow] at h <;> exact h
        have hput := follow_put hfollow hplace content
        simp [read, visit, locate, bind, Except.bind, hsteps, hput, hopen]

/-- **A directory as a value obeys the laws of files.** -/
theorem laws : Files.Laws contentAt where
  present _ _ := rfl
  directory _ _ := rfl
  read _ _ := rfl
  failed path text s e t h := by
    rw [write_eq] at h
    split at h
    · cases h
    · cases h
      rfl
  written path text s t h := by
    rw [write_eq] at h
    split at h
    · next location htarget =>
      cases h
      refine ⟨?_, location, contentAt_put_self .., fun other hother => ?_⟩
      · show (FileTree.read _ path, _) = _
        rw [read_put htarget]
      · exact contentAt_put_of_ne s hother _
    · cases h

end FileTree

/-! ### The theorem -/

/-- **A run that fails changes nothing, and one that succeeds writes one result.** Writing wrappers
fails with all files as they were, or it puts the wrappers for the text of its input into the
file in the destination that the prefix names, and leaves every other file. However command lines
are read, one exits with a code other than zero, with all files as they were and nothing printed,
or it stands for a command that has done its work and no more. -/
theorem Command.effects {σ Key : Type} [Files (StateM σ)] {content : σ → Key → Option ByteArray}
    (laws : Files.Laws content) :
    (∀ input destination p s, match (writeWrappers input destination p :
        ExceptT Failure (StateM σ) String).run s with
      | (.error _, t) => t = s
      | (.ok path, t) => path = joinPath destination (p.wrapper ++ ".swift") ∧ ∃ text code,
          (readText input : ExceptT Failure (StateM σ) String).run s = (.ok text, s) ∧
          Output.wrappers p text = .ok code ∧ Files.Replaces content s path code t) ∧
    ∀ reading words s report t,
      (executeBy reading words : StateM σ Report) s = (report, t) →
      (report.exit ≠ 0 → t = s ∧ report.output = "") ∧
      (report.exit = 0 → ∃ command, reading words = some command ∧
        command.Done content s t) := by
  refine ⟨fun input destination p s => ?_, fun reading words s report t h =>
    executeBy_effects laws h⟩
  have hcareful := careful_writeWrappers laws input destination p
  cases hrun : (writeWrappers input destination p : ExceptT Failure (StateM σ) String).run s with
  | mk r t =>
    cases r with
    | error e => exact hcareful.failed s e t hrun
    | ok path => exact hcareful.succeeded s path t hrun

/-- A message, something that is no schema, and a directory. -/
def FileTree.sample : FileTree :=
  ⟨[["out"]], [(["a.proto"], "message A \x7b\n\x7d".toUTF8), (["b.proto"], "mess".toUTF8)]⟩

/-- A file that is formatted in place, one that is no schema, and wrappers for the first. -/
theorem Command.effects_sample :
    (∃ report t, (execute ["format", "-i", "a.proto", "--output=a.proto"] : StateM FileTree Report)
        .sample = (report, t) ∧ report.exit = 0 ∧
      (Command.format "a.proto" (some "a.proto")).Done FileTree.contentAt .sample t) ∧
    (∃ report, (execute ["dump", "-ib.proto"] : StateM FileTree Report) .sample =
      (report, .sample) ∧ report.exit = 1 ∧ report.output = "") ∧
    ∃ code t, (writeWrappers "a.proto" "out" ⟨"W", "P"⟩ :
        ExceptT Failure (StateM FileTree) String).run .sample = (.ok "out/W.swift", t) ∧
      Files.Replaces FileTree.contentAt .sample "out/W.swift" code t := by
  obtain ⟨hwrappers, hexecute⟩ := Command.effects FileTree.laws
  refine ⟨?_, ?_, ?_⟩
  · have hexit : ((execute ["format", "-i", "a.proto", "--output=a.proto"] :
        StateM FileTree Report) .sample).1.exit = 0 := by decide +kernel
    have hwords : ofWords? ["format", "-i", "a.proto", "--output=a.proto"] =
        some (.format "a.proto" (some "a.proto")) := by decide +kernel
    obtain ⟨command, hcommand, hdone⟩ := (hexecute ofWords? _ _ _ _ (Prod.eta _).symm).2 hexit
    cases hwords.symm.trans hcommand
    exact ⟨_, _, rfl, hexit, hdone⟩
  · have hexit : ((execute ["dump", "-ib.proto"] : StateM FileTree Report) .sample).1.exit = 1 := by
      decide +kernel
    have hone : ((execute ["dump", "-ib.proto"] : StateM FileTree Report) .sample).1.exit ≠ 0 := by
      rw [hexit]
      decide
    obtain ⟨hsame, hempty⟩ := (hexecute ofWords? _ _ _ _ (Prod.eta _).symm).1 hone
    exact ⟨_, Prod.ext rfl hsame, hexit, hempty⟩
  · have hok : ((writeWrappers "a.proto" "out" ⟨"W", "P"⟩ :
        ExceptT Failure (StateM FileTree) String).run .sample).1.isOk = true := by decide +kernel
    have hpath : joinPath "out" "W.swift" = "out/W.swift" := by decide +kernel
    have h := hwrappers "a.proto" "out" ⟨"W", "P"⟩ .sample
    cases hrun : (writeWrappers "a.proto" "out" ⟨"W", "P"⟩ :
        ExceptT Failure (StateM FileTree) String).run .sample with
    | mk r t =>
      rw [hrun] at h hok
      cases r with
      | error e => cases hok
      | ok path =>
        obtain ⟨hp, text, code, -, -, hreplaces⟩ := h
        cases hp.trans hpath
        exact ⟨code, t, rfl, hreplaces⟩

end SwiftWrap
