import DollarMath.Proofs.Tidy

/-!
# Converting a converted text

A stage reads what the stages before it wrote, and no stage looks back.  So a converted text can
hold what an earlier stage acts on: braces that were doubled again when an outer pair went, a
matrix environment that stands open to its neighbours, a block whose marker moved.  The texts on
which a second conversion does nothing are described here by what they do not hold; the script
characters and the blank characters of a converted text are in order already.
-/

namespace DollarMath

/-- A text in which nothing is left to convert, apart from script characters and blank characters
that every converted text has in order. -/
structure IsSettled (text : Text) : Prop where
  /-- No delimiter is left. -/
  no_delimiter : ∀ word ∈ Delimiter.words, ¬ word <:+: text
  /-- No aligned environment is left. -/
  no_aligned : ∀ environment : Environment, environment.name ∈ Environment.alignedNames →
    ¬ environment.source <:+: text
  /-- Every matrix environment counts as displayed. -/
  displayed : ∀ place ∈ Matrix.occurrences.places text,
    place.2.isDisplayed (Marker.offsets text) place.1 = true
  /-- No display-style command is left. -/
  no_command : ¬ DisplayStyle.command <:+: text
  /-- The contents of blocks are up to their markers. -/
  tight : Layout.IsTight (Marker.chunks text)
  /-- No braces are doubled. -/
  single_braces : Brace.HasSingleBraces text

/-- A tidy text is left alone by every stage exactly when it is settled. -/
theorem IsTidy.apply_eq_self_iff {text : Text} (tidy : IsTidy text) :
    (∀ stage : Stage, stage.apply text = text) ↔ IsSettled text := by
  constructor
  · intro fixed
    have inline := Delimiter.dollarInline_eq_self_iff.mp (fixed .inlineDelimiters)
    have block := Delimiter.dollarBlocks_eq_self_iff.mp (fixed .blockDelimiters)
    constructor
    case no_delimiter =>
      simpa [Delimiter.words, Text.ofString, and_assoc] using And.intro inline block
    case no_aligned => exact Environment.blockAligned_eq_self_iff.mp (fixed .alignedEnvironments)
    case displayed => exact Matrix.blockMatrices_eq_self_iff.mp (fixed .matrixEnvironments)
    case no_command => exact DisplayStyle.dropCommands_eq_self_iff.mp (fixed .displayStyle)
    case tight =>
      exact (Layout.normalize_eq_self_iff tidy.trimmed tidy.short_runs).mp (fixed .whitespace)
    case single_braces => exact Brace.dropDoubled_eq_self_iff.mp (fixed .redundantBraces)
  · intro settled stage
    have absent : ∀ word ∈ Delimiter.words, ¬ word <:+: text := settled.no_delimiter
    simp only [Delimiter.words, List.forall_mem_cons, Text.ofString] at absent
    obtain ⟨openInline, closeInline, openBlock, closeBlock, _⟩ := absent
    cases stage with
    | inlineDelimiters => exact Delimiter.dollarInline_eq_self_iff.mpr ⟨openInline, closeInline⟩
    | blockDelimiters => exact Delimiter.dollarBlocks_eq_self_iff.mpr ⟨openBlock, closeBlock⟩
    | alignedEnvironments => exact Environment.blockAligned_eq_self_iff.mpr settled.no_aligned
    | matrixEnvironments => exact Matrix.blockMatrices_eq_self_iff.mpr settled.displayed
    | displayStyle => exact DisplayStyle.dropCommands_eq_self_iff.mpr settled.no_command
    | escapeScripts => exact tidy.escaped
    | whitespace =>
        exact (Layout.normalize_eq_self_iff tidy.trimmed tidy.short_runs).mpr settled.tight
    | redundantBraces => exact Brace.dropDoubled_eq_self_iff.mpr settled.single_braces
    | trim => exact tidy.stripped

/-- A second conversion changes nothing, and reports no change and no stage, exactly when the
first one left a settled text. -/
theorem convert_convert_eq_iff (text : Text) :
    (convert (convert text) = convert text ↔ IsSettled (convert text)) ∧
      ((Report.ofText (convert text)).changed = false ∧ (Report.ofText (convert text)).stages = [] ↔
        IsSettled (convert text)) := by
  have settled : convert (convert text) = convert text ↔ IsSettled (convert text) :=
    convert_eq_self_iff.trans (isTidy_convert text).apply_eq_self_iff
  refine ⟨settled, ?_⟩
  rw [← settled, Report.changed_eq_false_iff]
  exact ⟨fun report => report.1, fun fixed => ⟨fixed, Report.stages_eq_nil fixed⟩⟩

/-- Three pairs of braces become two, and the two become one when they are converted again. -/
theorem convert_convert_ne_of_three_braces :
    convert (convert "\x7b\x7b\x7bx\x7d\x7d\x7d") ≠ convert "\x7b\x7b\x7bx\x7d\x7d\x7d" ∧
      (Report.ofText (convert "\x7b\x7b\x7bx\x7d\x7d\x7d")).changed = true ∧
      (Report.ofText (convert "\x7b\x7b\x7bx\x7d\x7d\x7d")).stages = [.redundantBraces] := by
  decide +kernel

/-- A matrix behind other text in a sentence is put between markers once more. -/
example :
    (Report.ofText (convert "\\(A = \\begin\x7bmatrix\x7d1\\end\x7bmatrix\x7d\\)")).stages =
      [.matrixEnvironments] := by
  decide +kernel

end DollarMath
