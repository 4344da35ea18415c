import DollarMath.Conversion
import DollarMath.Proofs.Markup.Brace
import DollarMath.Proofs.Markup.Layout
import DollarMath.Proofs.Markup.Matrix
import DollarMath.Proofs.Markup.Script

/-!
# Runs of the stages

Every stage leaves a text alone or makes it heavier, so a run of stages gives a text back only
when each of them leaves it alone: no stage undoes what another one did.  Blank texts stay blank
through all stages and are stripped in the end, which is why a conversion need not run them.
-/

namespace DollarMath

/-- The last three stages take blank characters and braces away. -/
theorem thins_finish (text : Text) :
    Text.Thins Text.isBlank text
      (Text.strip (Brace.dropDoubled (Layout.normalize text))) := by
  have braces : Text.Thins Text.isBlank (Layout.normalize text)
      (Brace.dropDoubled (Layout.normalize text)) :=
    (Brace.thins_dropDoubled _).mono (by simp)
  exact ((Layout.thins_normalize text).trans braces).trans (Text.thins_strip _)

namespace Stage

/-- No stage makes a text lighter or moves it without a change of weight. -/
theorem raises_apply (stage : Stage) : Text.Raises Text.markWeight stage.apply := by
  cases stage with
  | inlineDelimiters => exact Delimiter.raises_dollarInline
  | blockDelimiters => exact Delimiter.raises_dollarBlocks
  | alignedEnvironments => exact Environment.raises_blockAligned
  | matrixEnvironments => exact Matrix.raises_blockMatrices
  | displayStyle => exact DisplayStyle.raises_dropCommands
  | escapeScripts => exact Script.raises_escapeFrom (by decide) false
  | whitespace => exact Text.Thins.raises Layout.thins_normalize
  | redundantBraces => exact Brace.raises_dropDoubled
  | trim => exact Text.Thins.raises Text.thins_strip

@[simp]
theorem applyAll_cons (stage : Stage) (stages : List Stage) (text : Text) :
    applyAll (stage :: stages) text = applyAll stages (stage.apply text) := rfl

theorem raises_applyAll (stages : List Stage) : Text.Raises Text.markWeight (applyAll stages) := by
  induction stages with
  | nil => exact fun _ => .inl rfl
  | cons stage stages ih => exact stage.raises_apply.comp ih

/-- A run of stages gives a text back exactly when each stage leaves it alone. -/
theorem applyAll_eq_self_iff {stages : List Stage} {text : Text} :
    applyAll stages text = text ↔ ∀ stage ∈ stages, stage.apply text = text := by
  induction stages with
  | nil => simp [applyAll]
  | cons stage stages ih =>
      rw [applyAll_cons, stage.raises_apply.comp_eq_self_iff (raises_applyAll stages), ih,
        List.forall_mem_cons]

theorem isBlankText_apply (stage : Stage) {text : Text} (blank : Text.isBlankText text) :
    Text.isBlankText (stage.apply text) := by
  have noBackslash : '\\' ∉ text := Text.not_mem_of_isBlankText blank (by decide)
  have absent : ∀ {word : Text}, '\\' ∈ word → ¬ word <:+: text :=
    fun letter inside => noBackslash (inside.subset letter)
  cases stage with
  | inlineDelimiters =>
      rwa [apply, Delimiter.dollarInline_eq_self_iff.mpr ⟨absent (by simp), absent (by simp)⟩]
  | blockDelimiters =>
      rwa [apply, Delimiter.dollarBlocks_eq_self_iff.mpr ⟨absent (by simp), absent (by simp)⟩]
  | alignedEnvironments =>
      rwa [apply, Environment.blockAligned_of_no_begin (absent (by decide))]
  | matrixEnvironments =>
      rwa [apply, Matrix.blockMatrices_of_no_begin (absent (by decide))]
  | displayStyle =>
      rwa [apply, DisplayStyle.dropCommands_eq_self_iff.mpr (absent (by decide))]
  | escapeScripts => rwa [apply, Script.escapeBare_of_isBlankText blank]
  | whitespace =>
      exact Text.isBlankText_of_subset (Layout.thins_normalize text).sublist.subset blank
  | redundantBraces =>
      exact Text.isBlankText_of_subset (Brace.thins_dropDoubled text).sublist.subset blank
  | trim => exact Text.isBlankText_of_subset (Text.thins_strip text).sublist.subset blank

theorem isBlankText_applyAll (stages : List Stage) {text : Text} (blank : Text.isBlankText text) :
    Text.isBlankText (applyAll stages text) := by
  induction stages generalizing text with
  | nil => exact blank
  | cons stage stages ih => exact ih (stage.isBlankText_apply blank)

theorem applyAll_all_of_isBlankText {text : Text} (blank : Text.isBlankText text) :
    applyAll all text = [] :=
  Text.strip_of_isBlankText (isBlankText_applyAll
    [.inlineDelimiters, .blockDelimiters, .alignedEnvironments, .matrixEnvironments, .displayStyle,
      .escapeScripts, .whitespace, .redundantBraces] blank)

end Stage

theorem convert_eq_applyAll (text : Text) : convert text = Stage.applyAll Stage.all text := by
  rw [convert]
  split
  · rename_i blank
    exact (Stage.applyAll_all_of_isBlankText blank).symm
  · rfl

/-- A conversion gives a text back exactly when each stage leaves it alone. -/
theorem convert_eq_self_iff {text : Text} :
    convert text = text ↔ ∀ stage : Stage, stage.apply text = text := by
  rw [convert_eq_applyAll, Stage.applyAll_eq_self_iff]
  exact ⟨fun fixed stage => fixed stage stage.mem_all, fun fixed stage _ => fixed stage⟩

namespace Firing

/-- Reporting the stages does not change what they do. -/
theorem run_fst (stages : List Stage) (text : Text) :
    (run stages text).1 = Stage.applyAll stages text := by
  induction stages generalizing text with
  | nil => rfl
  | cons stage stages ih => exact ih (stage.apply text)

theorem run_snd_eq_nil_iff {stages : List Stage} {text : Text} :
    (run stages text).2 = [] ↔ ∀ stage ∈ stages, stage.apply text = text := by
  induction stages generalizing text with
  | nil => simp [run]
  | cons stage stages ih =>
      rw [List.forall_mem_cons, run]
      by_cases same : stage.apply text = text
      · simp only [same, if_true, true_and]
        exact ih
      · simp [same]

end Firing

namespace Report

theorem content_eq_applyAll (text : Text) :
    (ofText text).content = Stage.applyAll Stage.all text := by
  rw [ofText]
  split
  · rename_i blank
    exact (Stage.applyAll_all_of_isBlankText blank).symm
  · exact Firing.run_fst Stage.all text

theorem content_eq_convert (text : Text) : (ofText text).content = convert text := by
  rw [content_eq_applyAll, convert_eq_applyAll]

theorem changed_eq_false_iff {text : Text} :
    (ofText text).changed = false ↔ convert text = text := by
  rw [ofText, convert]
  split
  · cases text <;> simp
  · simp [Firing.run_fst]

/-- Where the conversion changes nothing, no stage is reported. -/
theorem stages_eq_nil {text : Text} (fixed : convert text = text) : (ofText text).stages = [] := by
  have still : (Firing.run Stage.all text).2 = [] := by
    rw [Firing.run_snd_eq_nil_iff]
    exact fun stage _ => convert_eq_self_iff.mp fixed stage
  rw [stages, ofText]
  split
  · rfl
  · simp [still]

end Report

/-- The conversion, the content of its report and the plain run of all stages are one function;
on blank texts, which a conversion does not run through the stages, it is empty. -/
theorem convert_report_and_stages_agree (text : Text) :
    convert text = Stage.applyAll Stage.all text ∧
      (Report.ofText text).content = Stage.applyAll Stage.all text ∧
      (Text.isBlankText text → Stage.applyAll Stage.all text = []) :=
  ⟨convert_eq_applyAll text, Report.content_eq_applyAll text,
    Stage.applyAll_all_of_isBlankText⟩

end DollarMath
