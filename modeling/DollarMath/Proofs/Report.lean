import DollarMath.Proofs.Conversion

/-!
# Reported stages

A report lists the stages that changed the text they read.  A stage that is not listed left its
text alone, so the listed stages do by themselves what all stages do; and as every listed stage
made the text heavier, a conversion that lists one does not give its text back.
-/

namespace DollarMath
namespace Firing

/-- Only stages that run fire, and they fire in their order. -/
theorem stages_run_sublist (stages : List Stage) (text : Text) :
    ((run stages text).2.map stage).Sublist stages := by
  induction stages generalizing text with
  | nil => exact List.Sublist.refl []
  | cons next stages ih =>
      have later := ih (next.apply text)
      rw [run]
      by_cases same : next.apply text = text
      · simpa [same] using (ih text).cons next
      · simpa [same] using later.cons_cons next

/-- The stages that fire do what all of them do. -/
theorem applyAll_stages_run (stages : List Stage) (text : Text) :
    Stage.applyAll ((run stages text).2.map stage) text = Stage.applyAll stages text := by
  induction stages generalizing text with
  | nil => rfl
  | cons next stages ih =>
      have later := ih (next.apply text)
      rw [Stage.applyAll_cons, ← later, run]
      by_cases same : next.apply text = text
      · simp [same]
      · simp [same]

end Firing

namespace Report

variable {text : Text}

theorem stages_of_visible (visible : Text.isBlankText text = false) :
    (ofText text).stages = (Firing.run Stage.all text).2.map Firing.stage := by
  simp [stages, ofText, visible]

/-- On a visible text no stage is reported exactly when the conversion changes nothing. -/
theorem stages_eq_nil_iff (visible : Text.isBlankText text = false) :
    (ofText text).stages = [] ↔ (ofText text).changed = false := by
  rw [stages_of_visible visible, List.map_eq_nil_iff, Firing.run_snd_eq_nil_iff,
    changed_eq_false_iff, convert_eq_self_iff]
  exact ⟨fun fixed stage => fixed stage stage.mem_all, fun fixed stage _ => fixed stage⟩

/-- The reported stages account for the change: there are some exactly when the text changed, they
come in the order of all stages, and by themselves they make the reported content. -/
theorem stages_account_for_change (visible : Text.isBlankText text = false) :
    ((ofText text).changed = true ↔ (ofText text).stages ≠ []) ∧
      ((ofText text).stages.map Stage.name).Sublist (Stage.all.map Stage.name) ∧
      Stage.applyAll (ofText text).stages text = (ofText text).content := by
  refine ⟨?_, ?_, ?_⟩
  · rw [Ne, stages_eq_nil_iff visible, Bool.not_eq_false]
  · rw [stages_of_visible visible]
    exact (Firing.stages_run_sublist Stage.all text).map Stage.name
  · rw [stages_of_visible visible, Firing.applyAll_stages_run, content_eq_applyAll]

/-- Four of the nine stages fire on a sentence with a bare script character and a block. -/
theorem stages_account_for_change_of_block :
    Text.isBlankText "\\(a_\\) and\n\\[\nb\n\\]" = false ∧
      (ofText "\\(a_\\) and\n\\[\nb\n\\]").changed = true ∧
      (ofText "\\(a_\\) and\n\\[\nb\n\\]").stages =
        [.inlineDelimiters, .blockDelimiters, .escapeScripts, .whitespace] ∧
      Stage.applyAll [.inlineDelimiters, .blockDelimiters, .escapeScripts, .whitespace]
        "\\(a_\\) and\n\\[\nb\n\\]" = (ofText "\\(a_\\) and\n\\[\nb\n\\]").content := by
  have visible : Text.isBlankText "\\(a_\\) and\n\\[\nb\n\\]" = false := by decide
  have listed : (ofText "\\(a_\\) and\n\\[\nb\n\\]").stages =
      [.inlineDelimiters, .blockDelimiters, .escapeScripts, .whitespace] := by
    decide +kernel
  obtain ⟨changed, _, replayed⟩ := stages_account_for_change visible
  rw [listed] at changed replayed
  exact ⟨visible, changed.mpr (List.cons_ne_nil _ _), listed, replayed⟩

end Report
end DollarMath
