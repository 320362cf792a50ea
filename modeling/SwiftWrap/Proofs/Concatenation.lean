import SwiftWrap.Proofs.Blame
import SwiftWrap.Proofs.Renumbering

/-! Lines behind lines.

Lines that leave no block open and whatever follows them are read one after the other: each
part gives a document of its own, and the document of both is the one behind the other
(`Document.ofLines_append_iff`). In schemas that is one list of declarations behind another,
whose numbers go on where those of the first end (`Schema.append`, `Schema.ofLines_append`). If
both parts have a package, the second is refused at the line that names it (`IsPackageLine`). -/
namespace SwiftWrap
open Spelling Grammar

/-! ### Documents -/

namespace Document

/-- A document is what the reader holds at file scope. -/
theorem ofLines_eq_ok_iff_runs {lines : List Line} {d : Document} :
    ofLines lines = .ok d ↔
      Draft.start.Runs (lines.map (·.text)) ⟨d.package, d.roots, .file⟩ := by
  rw [← Draft.foldlM_step_eq_ok_iff, ofLines]
  cases lines.foldlM Draft.step Draft.start with
  | error problem => simp [bind, Except.bind]
  | ok r =>
    obtain ⟨package, roots, blocks⟩ := r
    obtain ⟨package', roots'⟩ := d
    change Draft.finish _ = _ ↔ _
    rw [Draft.finish_eq_ok_iff]
    simp only [mk.injEq, Except.ok.injEq, Draft.mk.injEq]
    tauto

theorem openBlocks_of_ofLines {lines : List Line} {d : Document} (h : ofLines lines = .ok d) :
    openBlocks (lines.map (·.text)) = [] :=
  (ofLines_eq_ok_iff_runs.1 h).openBlocks.symm

theorem head?_toList_append (o : Option α) (l : List α) :
    (o.toList ++ l).head? = o.or l.head? := by
  cases o <;> rfl

/-- **Lines behind lines that leave no block open are read on their own.** -/
theorem ofLines_append_iff {first second : List Line}
    (hopen : openBlocks (first.map (·.text)) = []) {f : Document} :
    ofLines (first ++ second) = .ok f ↔ ∃ d e, ofLines first = .ok d ∧ ofLines second = .ok e ∧
      (d.package = none ∨ e.package = none) ∧ f = ⟨d.package.or e.package, d.roots ++ e.roots⟩ := by
  constructor
  · intro h
    have hall := ofLines_eq_ok_iff_runs.1 h
    rw [List.map_append] at hall
    obtain ⟨⟨package, roots, blocks⟩, hfirst, hsecond⟩ := hall.split
    obtain rfl := Draft.stack_eq_nil_iff.1 (hfirst.openBlocks.trans hopen)
    obtain ⟨packages, forest, hfile, hone, heq⟩ := hsecond.file rfl
    have hlength := List.length_append ▸ hone
    refine ⟨⟨package, roots⟩, ⟨packages.head?, forest⟩, ofLines_eq_ok_iff_runs.2 hfirst,
      ofLines_eq_ok_iff.2 ⟨packages, hfile, by omega, rfl⟩, ?_, ?_⟩
    · cases package with
      | none => exact .inl rfl
      | some name =>
        rw [Option.toList_some, List.length_singleton] at hlength
        have hnone : packages = [] := List.length_eq_zero_iff.1 (by omega)
        exact .inr (by rw [hnone]; rfl)
    · obtain ⟨hpackage, hroots, -⟩ := Draft.mk.inj heq
      rw [head?_toList_append] at hpackage
      show f = ⟨package.or packages.head?, roots ++ forest⟩
      rw [← hpackage, ← hroots]
  · intro hx
    obtain ⟨d, e, hfirst, hsecond, hone, rfl⟩ := hx
    obtain ⟨packages, hfile, hle, hpackage⟩ := ofLines_eq_ok_iff.1 hsecond
    have hlength : (d.package.toList ++ packages).length ≤ 1 := by
      rw [hpackage, List.head?_eq_none_iff] at hone
      rcases hone with hnone | rfl
      · rwa [hnone]
      · cases d.package <;> simp
    have hrun := Draft.runs_file hfile d.package d.roots hlength
    rw [head?_toList_append, ← hpackage] at hrun
    rw [ofLines_eq_ok_iff_runs, List.map_append]
    exact (ofLines_eq_ok_iff_runs.1 hfirst).append hrun

end Document

/-! ### Schemas behind schemas -/

/-- One schema after another, whose numbers go on where those of the first end. Of the packages,
the one that is there. -/
def Schema.append (s t : Schema) : Schema where
  package := s.package.or t.package
  roots := s.roots ++ t.roots.map (· + s.declarations.length)
  declarations := s.declarations ++
    t.declarations.map (Declaration.renumber (· + s.declarations.length))

instance : Append Schema := ⟨Schema.append⟩

namespace Document

theorem toSchema_append {d e : Document}
    (h : ∀ x ∈ e.toSchema.declarations, ∀ f ∈ x.fields, f.AsDeclared) :
    (⟨d.package.or e.package, d.roots ++ e.roots⟩ : Document).toSchema =
      d.toSchema ++ e.toSchema := by
  have hlength : d.toSchema.declarations.length = d.roots.size := Forest.length_declarations ..
  have hrow : MovesRow (· + d.roots.size) 0 (0 + d.roots.size) e.roots.size :=
    fun k _ => Nat.add_right_comm 0 k d.roots.size
  show toSchema _ = Schema.append _ _
  rw [Schema.append, hlength]
  simp only [toSchema, Forest.numbers_append, Forest.declarations_append]
  have hdeclarations := Forest.declarations_renumber hrow h
  rw [← Forest.numbers_renumber hrow, hdeclarations]
  rfl

end Document

/-! ### The package line -/

/-- A line at file scope that names a package. -/
def IsPackageLine (lines : List Line) (line : Line) (name : String) : Prop :=
  ∃ before after, lines = before ++ line :: after ∧ openBlocks (before.map (·.text)) = [] ∧
    IsPackage line.text name

namespace Draft

/-- A line leaves the package alone, or is the first to name one. -/
theorem Steps.package_cases {r r' : Draft} {text : String} (h : r.Steps text r') :
    r'.package = r.package ∨ r.package = none ∧ r.blocks = .file ∧
      ∃ name, IsPackage text name ∧ r'.package = some name := by
  cases h with
  | package hname => exact .inr ⟨rfl, rfl, _, hname, rfl⟩
  | @closeMessage _ _ _ outer => cases outer <;> exact .inl rfl
  | _ => exact .inl rfl

theorem fileLine_package {r : Draft} {line : Line} {name : String}
    (h : IsPackage line.text name) : r.fileLine line =
      if r.package.isSome then .error (.repeatedPackage line.number name)
      else .ok { r with package := some name } := by
  rw [fileLine, FileStatement.read?_eq_some_iff.2 (.package h)]

/-- A package line can be read only where there is no package yet. -/
theorem Steps.package_of_file {r r' : Draft} {text name : String} (h : r.Steps text r')
    (hfile : r.blocks = .file) (hname : IsPackage text name) :
    r.package = none ∧ r'.package = some name := by
  have hstep : r.step ⟨text, 0⟩ = .ok r' := step_of_steps h
  rw [step, hfile] at hstep
  change r.fileLine _ = _ at hstep
  rw [fileLine_package hname] at hstep
  cases hnone : r.package with
  | none =>
    rw [hnone] at hstep
    cases hstep
    exact ⟨rfl, rfl⟩
  | some own =>
    rw [hnone] at hstep
    cases hstep

/-- A package name stays to the end. -/
theorem Runs.package_some {r r' : Draft} {texts : List String} {name : String}
    (h : r.Runs texts r') (hname : r.package = some name) : r'.package = some name := by
  induction h with
  | nil => exact hname
  | cons hstep _ ih =>
    rcases hstep.package_cases with hsame | ⟨hnone, -⟩
    · exact ih (hsame.trans hname)
    · rw [hname] at hnone
      cases hnone

/-- A package name comes from a line at file scope. -/
theorem Runs.exists_package {r r' : Draft} {texts : List String} {name : String}
    (h : r.Runs texts r') (hnone : r.package = none) (hname : r'.package = some name) :
    ∃ before text after mid, texts = before ++ text :: after ∧ r.Runs before mid ∧
      mid.package = none ∧ mid.blocks = .file ∧ IsPackage text name := by
  induction h with
  | nil =>
    rw [hname] at hnone
    cases hnone
  | @cons r _ _ text rest hstep hrest ih =>
    rcases hstep.package_cases with hsame | ⟨-, hfile, name', hpackage, hsome⟩
    · obtain ⟨before, text', after, mid, rfl, hbefore, hmid⟩ := ih (hsame.trans hnone) hname
      exact ⟨text :: before, text', after, mid, rfl, .cons hstep hbefore, hmid⟩
    · rw [hrest.package_some hsome] at hname
      cases hname
      exact ⟨[], text, rest, r, rfl, .nil, hnone, hfile, hpackage⟩

end Draft

namespace IsPackageLine

/-- Up to a package line there is no package, and from it on there is this one. -/
theorem split {before after : List Line} {line : Line} {name : String} {r : Draft}
    (h : Draft.start.Runs ((before ++ line :: after).map (·.text)) r)
    (hopen : openBlocks (before.map (·.text)) = []) (hname : IsPackage line.text name) :
    ∃ mid next, Draft.start.Runs (before.map (·.text)) mid ∧ mid.package = none ∧
      mid.Steps line.text next ∧ next.package = some name ∧
      next.Runs (after.map (·.text)) r := by
  rw [List.map_append] at h
  obtain ⟨mid, hbefore, hafter⟩ := h.split
  have hfile := Draft.stack_eq_nil_iff.1 (hbefore.openBlocks.trans hopen)
  cases hafter with
  | @cons _ next _ _ _ hstep hrest =>
    obtain ⟨hnone, hsome⟩ := hstep.package_of_file hfile hname
    exact ⟨mid, next, hbefore, hnone, hstep, hsome, hrest⟩

theorem package_eq {lines : List Line} {line : Line} {name : String} {r : Draft}
    (h : IsPackageLine lines line name) (hrun : Draft.start.Runs (lines.map (·.text)) r) :
    r.package = some name := by
  obtain ⟨before, after, rfl, hopen, hname⟩ := h
  obtain ⟨mid, next, -, -, -, hsome, hrest⟩ := split hrun hopen hname
  exact hrest.package_some hsome

/-- No package line stands before another. -/
theorem not_before {before between after : List Line} {line line' : Line} {name name' : String}
    {r : Draft}
    (hrun : Draft.start.Runs ((before ++ line :: between ++ line' :: after).map (·.text)) r)
    (hopen : openBlocks (before.map (·.text)) = []) (hname : IsPackage line.text name)
    (hopen' : openBlocks ((before ++ line :: between).map (·.text)) = []) :
    ¬IsPackage line'.text name' := by
  intro hname'
  obtain ⟨mid, next, hbefore, hnone, -⟩ := split hrun hopen' hname'
  rw [package_eq ⟨before, between, rfl, hopen, hname⟩ hbefore] at hnone
  cases hnone

/-- There is one package line at most. -/
theorem unique {lines : List Line} {line line' : Line} {name name' : String} {r : Draft}
    (hrun : Draft.start.Runs (lines.map (·.text)) r) (h : IsPackageLine lines line name)
    (h' : IsPackageLine lines line' name') : line' = line ∧ name' = name := by
  refine ⟨?_, Option.some.inj ((h'.package_eq hrun).symm.trans (h.package_eq hrun))⟩
  obtain ⟨before, after, rfl, hopen, hname⟩ := h
  obtain ⟨before', after', heq, hopen', hname'⟩ := h'
  rcases List.append_eq_append_iff.1 heq with ⟨between, rfl, hline⟩ | ⟨between, rfl, hline⟩
  · cases between with
    | nil => exact (List.cons.inj hline).1.symm
    | cons first between =>
      cases hline
      rw [heq] at hrun
      exact absurd hname' (not_before hrun hopen hname hopen')
  · cases between with
    | nil => exact (List.cons.inj hline).1
    | cons first between =>
      cases hline
      exact absurd hname (not_before hrun hopen' hname' hopen)

end IsPackageLine

namespace Schema

/-- A second package is refused at its line. -/
theorem ofLines_append_of_packages {first second : List Line} {d e : Document}
    {own other : String} (h : Document.ofLines first = .ok d) (h' : Document.ofLines second = .ok e)
    (hown : d.package = some own) (hother : e.package = some other) :
    ∃ line, (∀ line' name, IsPackageLine second line' name ↔ line' = line ∧ name = other) ∧
      ofLines (first ++ second) = .error (.repeatedPackage line.number other) := by
  have hrun := Document.ofLines_eq_ok_iff_runs.1 h'
  obtain ⟨front, text, back, mid, htexts, hfront, hnone, hfile, hname⟩ :=
    hrun.exists_package rfl hother
  obtain ⟨before, rest, rfl, rfl, hrest⟩ := List.map_eq_append_iff.1 htexts
  obtain ⟨line, after, rfl, rfl, rfl⟩ := List.map_eq_cons_iff.1 hrest
  have hopen : openBlocks (before.map (·.text)) = [] := by
    rw [← hfront.openBlocks, Draft.stack_eq_nil_iff, hfile]
  have hline : IsPackageLine (before ++ line :: after) line other :=
    ⟨before, after, rfl, hopen, hname⟩
  refine ⟨line, fun line' name => ⟨fun hx => hline.unique hrun hx, ?_⟩, ?_⟩
  · rintro ⟨rfl, rfl⟩
    exact hline
  · obtain ⟨package, roots, blocks⟩ := mid
    cases hnone
    cases hfile
    have hbefore : Document.ofLines before = .ok ⟨none, roots⟩ :=
      Document.ofLines_eq_ok_iff_runs.2 hfront
    have hboth := (Document.ofLines_append_iff (Document.openBlocks_of_ofLines h)).2
      ⟨d, _, h, hbefore, .inr rfl, rfl⟩
    have hstep : Draft.step ⟨d.package.or none, d.roots ++ roots, .file⟩ line =
        .error (.repeatedPackage line.number other) := by
      show Draft.fileLine _ line = _
      rw [Draft.fileLine_package hname, hown]
      rfl
    rw [← List.append_assoc]
    exact ofLines_of_step_error (Document.ofLines_eq_ok_iff_runs.1 hboth) hstep after

/-- **Reading respects concatenation.** Lines that hold a schema followed by lines that hold
another hold the one behind the other, unless both have a package. Then the second package
is refused, at the one line that names it. -/
theorem ofLines_append {first second : List Line} {s t : Schema} (h : ofLines first = .ok s)
    (h' : ofLines second = .ok t) :
    (s.package = none ∨ t.package = none → ofLines (first ++ second) = .ok (s ++ t)) ∧
    ∀ own other, s.package = some own → t.package = some other → ∃ line,
      (∀ line' name, IsPackageLine second line' name ↔ line' = line ∧ name = other) ∧
      ofLines (first ++ second) = .error (.repeatedPackage line.number other) := by
  obtain ⟨d, hd, rfl⟩ := ofLines_eq_ok_iff_document.1 h
  obtain ⟨e, he, rfl⟩ := ofLines_eq_ok_iff_document.1 h'
  constructor
  · intro hone
    rw [← Document.toSchema_append (Document.asDeclared he)]
    refine ofLines_eq_ok_iff_document.2 ⟨_, ?_, rfl⟩
    exact (Document.ofLines_append_iff (Document.openBlocks_of_ofLines hd)).2
      ⟨d, e, hd, he, hone, rfl⟩
  · intro own other hown hother
    exact ofLines_append_of_packages hd he hown hother

end Schema

/-- The lines of a message under a package name. -/
def packagedLines (package name : String) : List Line :=
  [⟨s!"package {package};", 1⟩, ⟨s!"message {name} \x7b", 2⟩, ⟨"\x7d", 3⟩]

/-- What these lines hold. -/
def Document.packaged (package name : String) : Document :=
  ⟨some package, .message name [] .nil .nil⟩

theorem Schema.ofLines_append_packaged :
    Schema.ofLines (twinLines ++ packagedLines "p" "D") =
      .ok (Document.twinSample.toSchema ++ (Document.packaged "p" "D").toSchema) ∧
    Schema.ofLines (packagedLines "p" "D" ++ packagedLines "q" "E") =
      .error (.repeatedPackage 1 "q") := by
  have htwins : Schema.ofLines twinLines = .ok Document.twinSample.toSchema := by rfl
  have hfirst : Schema.ofLines (packagedLines "p" "D") =
      .ok (Document.packaged "p" "D").toSchema := by rfl
  have hsecond : Schema.ofLines (packagedLines "q" "E") =
      .ok (Document.packaged "q" "E").toSchema := by rfl
  refine ⟨(Schema.ofLines_append htwins hfirst).1 (.inl rfl), ?_⟩
  obtain ⟨line, hline, herror⟩ := (Schema.ofLines_append hfirst hsecond).2 "p" "q" rfl rfl
  have hread : FileStatement.read? "package q;" = some (.package "q") := by rfl
  cases FileStatement.read?_eq_some_iff.1 hread with
  | package hname =>
    obtain ⟨rfl, -⟩ := (hline ⟨"package q;", 1⟩ "q").1 ⟨[], _, rfl, rfl, hname⟩
    exact herror

end SwiftWrap
