import SwiftWrap.Proofs.Appending
import SwiftWrap.Output

/-! Writing that leaves the sheet as it was.

What is written for a declaration is put together of many parts, some of them only under
conditions, and of what is written for the declarations in it. Each part goes deeper and comes back
on its own, so no part can push what follows it out of place: it ends at the depth at which it
started, never leaves it, and touches nothing that stood above it (`Script.Balanced`).

`Schema.emission_balanced` says so of every declaration of any schema, linked or not, for the
generated code and for the fixed form. -/
namespace SwiftWrap
open Sheet

namespace Script

/-- Wherever a script is run, it ends at the depth at which it started. What it adds is as deep at
least, and what was above stays, not only in the end but at every moment before. -/
structure Balanced (script : Script) : Prop where
  depth : ∀ s : Sheet, (s.run script).depth = s.depth
  above : ∀ (s : Sheet) (before after : Script), script = before ++ after → ∃ added,
    (s.run before).above = added ++ s.above ∧ ∀ line ∈ added, ∃ text, line = tabs s.depth ++ text
  /-- The depth is taken back only where it has been raised. -/
  dedent : ∀ (s : Sheet) (before after : Script), script = before ++ .dedent :: after →
    s.depth < (s.run before).depth
  /-- Blank lines are taken back only where the script has added them. -/
  strip : ∀ (s : Sheet) (before after : Script), script = before ++ .strip :: after →
    ∃ taken added, (s.run before).above = taken ++ (added ++ s.above) ∧
      (∀ line ∈ taken, isBlankLine line = true) ∧
      (s.run (before ++ [.strip])).above = added ++ s.above

/-- A script that only adds lines comes back to its depth, and takes back nothing before it. -/
theorem Appends.balanced {script : Script} (h : Appends script) : Balanced script := by
  have hkeeps (s : Sheet) {before after : Script} {step : Step}
      (hsplit : script = before ++ step :: after) : s.Keeps (s.run before) step := by
    obtain ⟨lines, hadds⟩ := h s.depth
    have halways := hadds.always s.above
    rw [hsplit] at halways
    exact halways.at
  have habove (s : Sheet) (before after : Script) (hsplit : script = before ++ after) :
      s.Continues (s.run before) := by
    rcases List.eq_nil_or_concat before with rfl | ⟨front, step, rfl⟩
    · exact .refl s
    · rw [List.concat_eq_append, List.append_assoc] at hsplit
      rw [List.concat_eq_append, run_append]
      exact (hkeeps s hsplit).continues
  refine ⟨fun s => ?_, fun s before after hsplit => (habove s before after hsplit).above,
    fun s before after hsplit => (hkeeps s hsplit).dedent rfl, fun s before after hsplit => ?_⟩
  · obtain ⟨lines, hadds⟩ := h s.depth
    have hrun : s.run script = ⟨lines ++ s.above, s.depth⟩ := hadds.run_eq s.above
    rw [hrun]
  · obtain ⟨added, hadded, -⟩ := (hkeeps s hsplit).continues.above
    have hdrop : (s.run before).above.dropWhile isBlankLine = added ++ s.above := hadded
    refine ⟨(s.run before).above.takeWhile isBlankLine, added, ?_, ?_, ?_⟩
    · rw [← hdrop, List.takeWhile_append_dropWhile]
    · exact fun _ => List.mem_takeWhile_imp
    · rw [run_append]
      exact hadded

end Script

open Script

/-- The block of a declaration adds lines if what is nested in it does. -/
theorem Declaration.appends_script (d : Declaration) {nested : Script} (h : Appends nested) :
    Appends (d.script nested) :=
  ((h.append (.map_line d.fields _)).append (.map_line d.items _)).braced _

namespace Schema
variable (s : Schema)

theorem appends_declarationScript (id : Nat) : Appends (s.declarationScript id) :=
  .collect (fun _ d _ h => d.appends_script h) id

theorem appends_headScript : Appends s.headScript := by
  unfold headScript
  refine .cons_line _ ?_
  split
  · exact .line _
  · exact .nil

/-- So does the whole fixed form. -/
theorem appends_script : Appends s.script :=
  s.appends_headScript.append (.flatMap fun root _ =>
    .cons_blank (s.appends_declarationScript root))

/-- **Writing is balanced.** What is written for a declaration, as generated code or in the fixed
form, leaves the depth and all that stood above as they were. So a whole text ends at depth
zero. -/
theorem emission_balanced :
    (∀ id, (Swift.wrapperScript s id).Balanced ∧ (s.declarationScript id).Balanced) ∧
      (Sheet.empty.run (Swift.script s)).depth = 0 ∧ (Sheet.empty.run s.script).depth = 0 := by
  have hcode : Appends (Swift.script s) :=
    .append (.lines Swift.banner) (.flatMap fun root _ => Swift.appends_wrapperScript s root)
  refine ⟨fun id => ⟨?_, ?_⟩, hcode.balanced.depth .empty, s.appends_script.balanced.depth .empty⟩
  · exact (Swift.appends_wrapperScript s id).balanced
  · exact (s.appends_declarationScript id).balanced

end Schema
end SwiftWrap
