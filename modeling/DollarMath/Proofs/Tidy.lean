import DollarMath.Proofs.Conversion

/-!
# Tidy texts

The last stages of a conversion escape script characters and bring the blank characters into a
normal form: no line ends in a space or a tab, no run of blank characters has three line breaks,
and visible characters stand at both ends.  What the stages behind take away disturbs none of
this, so every converted text is tidy.
-/

namespace DollarMath

/-- What every converted text has in order. -/
structure IsTidy (text : Text) : Prop where
  /-- No script character is bare. -/
  escaped : Script.escapeBare text = text
  /-- No line ends in a space or a tab. -/
  trimmed : Layout.trimLineEnds text = text
  /-- No run of blank characters has three line breaks. -/
  short_runs : Layout.ShortRuns text
  /-- No blank character stands at an end. -/
  stripped : Text.strip text = text

/-- A word without dollars and braces that is found behind the last three stages was normalised
before. -/
theorem infix_normalize {word text : Text} (noBrace : ∀ c ∈ word, Text.isBrace c = false)
    (inside : word <:+: Text.strip (Brace.dropDoubled (Layout.normalize text))) :
    word <:+: Layout.normalize text :=
  ((Brace.thins_dropDoubled _).infix_before noBrace).2 (inside.trans (Text.strip_isInfix _))

theorem isTidy_strip_dropDoubled_normalize {text : Text} (escaped : Script.escapeBare text = text) :
    IsTidy (Text.strip (Brace.dropDoubled (Layout.normalize text))) where
  escaped := Script.escapeFrom_eq_self_of_thins (thins_finish text) escaped
  trimmed := by
    rw [Layout.trimLineEnds_eq_self_iff]
    constructor
    · intro c space inside
      have blank := Layout.isBlankText_pair (Text.isBlank_of_isSpaceOrTab space)
      refine Layout.not_pair_infix_normalize space text (infix_normalize ?_ inside)
      exact fun d member => Text.isBrace_of_isBlank (Text.isBlankText_iff.mp blank d member)
    · intro c last
      have visible := Text.isBlank_getLast_strip last
      rw [← Bool.not_eq_true] at visible ⊢
      exact fun space => visible (Text.isBlank_of_isSpaceOrTab space)
  short_runs := by
    intro run inside blank
    refine Layout.shortRuns_normalize text run (infix_normalize ?_ inside) blank
    exact fun c member => Text.isBrace_of_isBlank (Text.isBlankText_iff.mp blank c member)
  stripped := Text.strip_strip _

/-- A converted text is tidy. -/
theorem isTidy_convert (text : Text) : IsTidy (convert text) := by
  rw [convert_eq_applyAll]
  exact isTidy_strip_dropDoubled_normalize (Script.escapeFrom_escapeFrom false _)

/-- In a converted text no script character is bare: each has a backslash directly before it, or an
ASCII letter, an ASCII digit or an opening brace directly behind it.  Escaping once more leaves the
text alone. -/
theorem convert_escaped (text : Text) :
    (∀ before c after, convert text = before ++ c :: after → c = '_' ∨ c = '^' →
      before.getLast? = some '\\' ∨
        ∃ operand, after.head? = some operand ∧
          (operand.isAlpha = true ∨ operand.isDigit = true ∨ operand = '\x7b')) ∧
      Script.escapeBare (convert text) = convert text :=
  ⟨Script.escapeBare_eq_self_iff.mp (isTidy_convert text).escaped, (isTidy_convert text).escaped⟩

/-- A converted text neither starts nor ends with a blank character, has no space or tab before a
line break and no run of blank characters with more than two line breaks. -/
theorem convert_layout (text : Text) :
    (∀ c, (convert text).head? = some c → Text.isBlank c = false) ∧
      (∀ c, (convert text).getLast? = some c → Text.isBlank c = false) ∧
      (∀ c, Text.isSpaceOrTab c = true → ¬ [c, '\n'] <:+: convert text) ∧
      ∀ run, run <:+: convert text → Text.isBlankText run = true → run.count '\n' ≤ 2 := by
  have tidy := isTidy_convert text
  refine ⟨?_, ?_, (Layout.trimLineEnds_eq_self_iff.mp tidy.trimmed).1, tidy.short_runs⟩
  · intro c first
    rw [← tidy.stripped] at first
    exact Text.isBlank_head_strip first
  · intro c last
    rw [← tidy.stripped] at last
    exact Text.isBlank_getLast_strip last

end DollarMath
