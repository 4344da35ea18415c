import DollarMath.Proofs.Markup.Bystander
import DollarMath.Proofs.Report

/-!
# Dialects and the stages that fire

The dialect is told from the text as it is written, and a stage reads what the stages before it
wrote.  They agree all the same: no stage makes or breaks a word of LaTeX on which a later one
acts, so the words that the dialect counts are the ones at which stages fire.
-/

namespace DollarMath
namespace Firing

theorem run_append (first second : List Stage) (text : Text) :
    (run (first ++ second) text).2 =
      (run first text).2 ++ (run second (Stage.applyAll first text)).2 := by
  induction first generalizing text with
  | nil => rfl
  | cons next first ih =>
      have later := ih (next.apply text)
      rw [List.cons_append, run, run, Stage.applyAll_cons]
      by_cases same : next.apply text = text
      · simpa [same] using ih text
      · simpa [same] using later

/-- A stage that runs once fires exactly when it changes what the stages before it wrote. -/
theorem mem_stages_run_iff {stage : Stage} {before after : List Stage}
    (before_fresh : stage ∉ before) (after_fresh : stage ∉ after) (text : Text) :
    stage ∈ (run (before ++ stage :: after) text).2.map Firing.stage ↔
      stage.apply (Stage.applyAll before text) ≠ Stage.applyAll before text := by
  have noBefore : stage ∉ (run before text).2.map Firing.stage := fun member =>
    before_fresh ((stages_run_sublist before text).subset member)
  have noAfter : ∀ text, stage ∉ (run after text).2.map Firing.stage := fun text member =>
    after_fresh ((stages_run_sublist after text).subset member)
  rw [run_append, List.map_append, List.mem_append, or_iff_right noBefore, run]
  by_cases same : stage.apply (Stage.applyAll before text) = Stage.applyAll before text
  · simpa [same] using noAfter _
  · simp [same]

end Firing

namespace Report

variable {text : Text}

/-- A stage is listed exactly when it changes what the stages before it wrote. -/
theorem mem_stages_iff (visible : Text.isBlankText text = false) {stage : Stage}
    (before : List Stage) {after : List Stage} (order : Stage.all = before ++ stage :: after)
    (before_fresh : stage ∉ before) (after_fresh : stage ∉ after) :
    stage ∈ (ofText text).stages ↔
      stage.apply (Stage.applyAll before text) ≠ Stage.applyAll before text := by
  rw [stages_of_visible visible, order, Firing.mem_stages_run_iff before_fresh after_fresh]

theorem visible_of_mem_stages {stage : Stage} (fired : stage ∈ (ofText text).stages) :
    Text.isBlankText text = false := by
  cases blank : Text.isBlankText text with
  | false => rfl
  | true => simp [ofText, blank, stages] at fired

theorem dialect_of_visible (visible : Text.isBlankText text = false) :
    (ofText text).dialect = Dialect.detect text := by
  simp [ofText, visible]

/-- One of the delimiter stages fires exactly when a delimiter stands in the text. -/
theorem delimiters_mem_stages_iff (visible : Text.isBlankText text = false) :
    .inlineDelimiters ∈ (ofText text).stages ∨ .blockDelimiters ∈ (ofText text).stages ↔
      ∃ word ∈ Delimiter.words, word <:+: text := by
  rw [mem_stages_iff visible [] rfl (by simp) (by simp),
    mem_stages_iff visible [.inlineDelimiters] rfl (by simp) (by simp)]
  change Delimiter.dollarInline text ≠ text ∨
    Delimiter.dollarBlocks (Delimiter.dollarInline text) ≠ Delimiter.dollarInline text ↔ _
  have still : Delimiter.dollarInline text = text ∧
      Delimiter.dollarBlocks (Delimiter.dollarInline text) = Delimiter.dollarInline text ↔
        Delimiter.dollarInline text = text ∧ Delimiter.dollarBlocks text = text :=
    and_congr_right fun same => by rw [same]
  rw [← not_iff_not, not_or, not_not, not_not, still, Delimiter.dollarInline_eq_self_iff,
    Delimiter.dollarBlocks_eq_self_iff]
  simp [Delimiter.words, Text.ofString, and_assoc]

theorem displayStyle_mem_stages_iff (visible : Text.isBlankText text = false) :
    .displayStyle ∈ (ofText text).stages ↔ DisplayStyle.command <:+: text := by
  rw [mem_stages_iff visible [.inlineDelimiters, .blockDelimiters, .alignedEnvironments,
    .matrixEnvironments] rfl (by simp) (by simp), Stage.apply, Ne,
    DisplayStyle.dropCommands_eq_self_iff, not_not, DisplayStyle.command_eq]
  exact ((SameBystanders.dollars text).inside _ isBystander_command).symm

theorem opening_of_alignedEnvironments_mem_stages (visible : Text.isBlankText text = false)
    (fired : .alignedEnvironments ∈ (ofText text).stages) :
    ∃ name ∈ Environment.alignedNames, Environment.opening name <:+: text := by
  have delimiters : Stage.applyAll [.inlineDelimiters, .blockDelimiters] text =
      Delimiter.toDollars text := Delimiter.dollarBlocks_dollarInline text
  rw [mem_stages_iff visible [.inlineDelimiters, .blockDelimiters] rfl (by simp) (by simp),
    delimiters, Stage.apply, Ne, Environment.blockAligned_eq_self_iff] at fired
  simp only [not_forall, not_not, exists_prop] at fired
  obtain ⟨environment, member, inside⟩ := fired
  have noDollar : ∀ name ∈ Environment.alignedNames, '$' ∉ Environment.opening name := by decide
  have opened := (Environment.opening_prefix_source environment).isInfix.trans inside
  exact ⟨environment.name, member,
    (Delimiter.infix_of_infix_toDollars (noDollar _ member)).2 opened⟩

end Report

namespace Dialect

variable {text : Text}

theorem mem_bracketed_iff {brackets dollars : Bool} :
    ofTokens brackets dollars ∈ [chatgpt, mixed] ↔ brackets = true := by
  cases brackets <;> cases dollars <;> simp [ofTokens]

theorem mem_dollared_iff {brackets dollars : Bool} :
    ofTokens brackets dollars ∈ [obsidian, mixed] ↔ dollars = true := by
  cases brackets <;> cases dollars <;> simp [ofTokens]

/-- The words that count are the delimiters, the display-style command and the opening words of
aligned environments. -/
theorem hasBrackets_iff :
    hasBrackets text = true ↔
      (∃ name ∈ Environment.alignedNames, Environment.opening name <:+: text) ∨
        (∃ word ∈ Delimiter.words, word <:+: text) ∨ DisplayStyle.command <:+: text := by
  have words : bracketWords = Delimiter.words ++ DisplayStyle.command ::
      Environment.alignedNames.map Environment.opening := rfl
  simp only [hasBrackets, words, List.any_append, List.any_cons, List.any_map, Bool.or_eq_true,
    List.any_eq_true, Function.comp_apply, Text.occursIn_iff]
  rw [← or_assoc, or_comm]

/-- Where block markers stand, there is a dollar without a backslash before it. -/
theorem hasDollars_of_offsets (marked : Marker.offsets text ≠ []) : hasDollars text = true := by
  rw [Marker.offsets, Marker.offsetsFrom] at marked
  split at marked
  · exact absurd rfl marked
  · rename_i found
    simp [hasDollars, found]

theorem visible_of_offsets (marked : Marker.offsets text ≠ []) : Text.isBlankText text = false := by
  rw [Marker.offsets, Marker.offsetsFrom] at marked
  split at marked
  · exact absurd rfl marked
  · rename_i dollars found
    have dollar : '$' ∈ dollars.run := by
      rw [Marker.Dollars.run]
      split <;> exact List.mem_cons_self
    have inside : '$' ∈ text := by
      rw [Marker.Dollars.eq_of_first? found]
      exact List.mem_append_right _ (List.mem_append_left _ dollar)
    cases blank : Text.isBlankText text with
    | false => rfl
    | true => exact absurd inside (Text.not_mem_of_isBlankText blank (by decide))

end Dialect

/-- The dialect of a text with a visible character counts LaTeX exactly when an aligned environment
is opened in the text or a stage for delimiters or commands fires; so it does whenever one of the
stages that rewrite LaTeX fires.  It counts dollars whenever the text has block markers. -/
theorem dialect_agrees_with_stages (text : Text) :
    (Text.isBlankText text = false →
      ((Report.ofText text).dialect ∈ [Dialect.chatgpt, .mixed] ↔
        (∃ name ∈ Environment.alignedNames, Environment.opening name <:+: text) ∨
          ∃ stage ∈ [Stage.inlineDelimiters, .blockDelimiters, .displayStyle],
            stage ∈ (Report.ofText text).stages)) ∧
      (∀ stage ∈ [Stage.inlineDelimiters, .blockDelimiters, .displayStyle, .alignedEnvironments],
        stage ∈ (Report.ofText text).stages →
          (Report.ofText text).dialect ∈ [Dialect.chatgpt, .mixed]) ∧
      (Marker.offsets text ≠ [] → (Report.ofText text).dialect ∈ [Dialect.obsidian, .mixed]) := by
  have counts : Text.isBlankText text = false →
      ((Report.ofText text).dialect ∈ [Dialect.chatgpt, .mixed] ↔
        (∃ name ∈ Environment.alignedNames, Environment.opening name <:+: text) ∨
          ∃ stage ∈ [Stage.inlineDelimiters, .blockDelimiters, .displayStyle],
            stage ∈ (Report.ofText text).stages) := by
    intro visible
    rw [Report.dialect_of_visible visible, Dialect.detect, Dialect.mem_bracketed_iff,
      Dialect.hasBrackets_iff, ← Report.delimiters_mem_stages_iff visible,
      ← Report.displayStyle_mem_stages_iff visible]
    simp [or_assoc]
  refine ⟨counts, ?_, ?_⟩
  · intro stage member fired
    have visible := Report.visible_of_mem_stages fired
    rw [counts visible]
    by_cases aligned : stage = .alignedEnvironments
    · subst aligned
      exact .inl (Report.opening_of_alignedEnvironments_mem_stages visible fired)
    · refine .inr ⟨stage, ?_, fired⟩
      simpa [aligned] using member
  · intro marked
    rw [Report.dialect_of_visible (Dialect.visible_of_offsets marked), Dialect.detect,
      Dialect.mem_dollared_iff]
    exact Dialect.hasDollars_of_offsets marked

/-- A formula between brackets and a block in which only a command is left to drop. -/
theorem dialect_agrees_with_stages_of_both :
    ((Report.ofText "\\(a\\) and $$\\displaystyle b$$").dialect ∈ [Dialect.chatgpt, .mixed] ↔
      (∃ name ∈ Environment.alignedNames,
        Environment.opening name <:+: "\\(a\\) and $$\\displaystyle b$$") ∨
        ∃ stage ∈ [Stage.inlineDelimiters, .blockDelimiters, .displayStyle],
          stage ∈ (Report.ofText "\\(a\\) and $$\\displaystyle b$$").stages) ∧
      (Report.ofText "\\(a\\) and $$\\displaystyle b$$").dialect = .mixed := by
  have visible : Text.isBlankText "\\(a\\) and $$\\displaystyle b$$" = false := by decide
  have fired : Stage.displayStyle ∈
      (Report.ofText "\\(a\\) and $$\\displaystyle b$$").stages := by
    decide +kernel
  have marked : Marker.offsets "\\(a\\) and $$\\displaystyle b$$" ≠ [] := by decide +kernel
  obtain ⟨exactly, counts, counts_dollars⟩ :=
    dialect_agrees_with_stages "\\(a\\) and $$\\displaystyle b$$"
  have latex := counts _ (by simp) fired
  have dollars := counts_dollars marked
  refine ⟨exactly visible, ?_⟩
  simp only [List.mem_cons, List.not_mem_nil, or_false] at latex dollars
  rcases latex with same | same
  · rw [same] at dollars
    simp at dollars
  · exact same

end DollarMath
