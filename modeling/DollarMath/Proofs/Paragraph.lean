import DollarMath.Proofs.Conversion
import DollarMath.Proofs.Markup.Seam

/-!
# Paragraphs

Paragraphs stand behind one another with an empty line between them.  When none of them leaves a
block open, each is converted as if it stood alone: the stages before the layout look at no more
than the next character, an empty line starts with a line break and so ends what was opened in the
sentence, and the layout is normalised apart on both sides of it.  A formula in the sentence that
is left open ends with its paragraph.
-/

namespace DollarMath

/-- The paragraphs with empty lines between them. -/
def joinParagraphs (paragraphs : List Text) : Text :=
  (Text.ofString "\n\n").intercalate paragraphs

/-- A text without blank characters at its ends and without environments, display-style commands
and doubled opening braces. -/
structure IsParagraph (text : Text) : Prop where
  /-- There is something in the paragraph. -/
  nonempty : text ≠ []
  /-- No blank characters stand at its ends. -/
  stripped : Text.strip text = text
  /-- No environment starts in the paragraph. -/
  no_begin : ¬ Text.ofString "\\begin" <:+: text
  /-- No display-style command stands in the paragraph. -/
  no_command : ¬ Text.ofString "\\displaystyle" <:+: text
  /-- No two opening braces stand side by side. -/
  no_double_brace : ¬ Text.ofString "\x7b\x7b" <:+: text

instance : DecidablePred IsParagraph := fun text =>
  decidable_of_iff
    (text ≠ [] ∧ Text.strip text = text ∧ ¬ Text.ofString "\\begin" <:+: text ∧
      ¬ Text.ofString "\\displaystyle" <:+: text ∧ ¬ Text.ofString "\x7b\x7b" <:+: text)
    ⟨fun ⟨nonempty, stripped, noBegin, noCommand, noDoubleBrace⟩ =>
        ⟨nonempty, stripped, noBegin, noCommand, noDoubleBrace⟩,
      fun ⟨nonempty, stripped, noBegin, noCommand, noDoubleBrace⟩ =>
        ⟨nonempty, stripped, noBegin, noCommand, noDoubleBrace⟩⟩

section Join

@[simp]
theorem joinParagraphs_singleton (paragraph : Text) : joinParagraphs [paragraph] = paragraph := by
  simp [joinParagraphs, List.intercalate]

theorem joinParagraphs_cons (paragraph : Text) {paragraphs : List Text}
    (more : paragraphs ≠ []) :
    joinParagraphs (paragraph :: paragraphs) =
      paragraph ++ '\n' :: '\n' :: joinParagraphs paragraphs := by
  cases paragraphs with
  | nil => exact absurd rfl more
  | cons next paragraphs =>
      simp [joinParagraphs, List.intercalate, List.intersperse, Text.ofString]

theorem exists_infix_of_infix_joinParagraphs {word : Text} (oneLine : '\n' ∉ word)
    (nonempty : word ≠ []) {paragraphs : List Text} (inside : word <:+: joinParagraphs paragraphs) :
    ∃ paragraph ∈ paragraphs, word <:+: paragraph := by
  induction paragraphs with
  | nil => exact absurd (List.infix_nil.mp inside) nonempty
  | cons paragraph paragraphs ih =>
      by_cases more : paragraphs = []
      · subst more
        exact ⟨paragraph, List.mem_cons_self, by simpa using inside⟩
      · rw [joinParagraphs_cons _ more, Text.infix_append_cons_iff_of_not_mem oneLine nonempty,
          Text.infix_cons_iff_of_not_mem oneLine] at inside
        rcases inside with here | later
        · exact ⟨paragraph, List.mem_cons_self, here⟩
        · obtain ⟨found, member, within⟩ := ih later
          exact ⟨found, List.mem_cons_of_mem _ member, within⟩

theorem isFlush_joinParagraphs {paragraphs : List Text} (nonempty : paragraphs ≠ [])
    (flush : ∀ paragraph ∈ paragraphs, Text.IsFlush paragraph) :
    Text.IsFlush (joinParagraphs paragraphs) := by
  induction paragraphs with
  | nil => exact absurd rfl nonempty
  | cons paragraph paragraphs ih =>
      rw [List.forall_mem_cons] at flush
      by_cases more : paragraphs = []
      · subst more
        simpa using flush.1
      · rw [joinParagraphs_cons _ more]
        exact flush.1.append ['\n', '\n'] (ih more flush.2)

end Join

namespace IsParagraph

variable {text : Text}

theorem isFlush (paragraph : IsParagraph text) : Text.IsFlush text :=
  .of_strip paragraph.nonempty paragraph.stripped

theorem join {paragraphs : List Text} (nonempty : paragraphs ≠ [])
    (all : ∀ paragraph ∈ paragraphs, IsParagraph paragraph) :
    IsParagraph (joinParagraphs paragraphs) := by
  have flush := isFlush_joinParagraphs nonempty fun paragraph member =>
    (all paragraph member).isFlush
  have absent : ∀ word : Text, '\n' ∉ word → word ≠ [] →
      (∀ paragraph ∈ paragraphs, ¬ word <:+: paragraph) →
      ¬ word <:+: joinParagraphs paragraphs := by
    intro word oneLine nonempty none inside
    obtain ⟨paragraph, member, within⟩ :=
      exists_infix_of_infix_joinParagraphs oneLine nonempty inside
    exact none paragraph member within
  constructor
  case nonempty => exact flush.ne_nil
  case stripped => exact flush.strip_eq_self
  case no_begin => exact absent _ (by decide) (by decide) fun p member => (all p member).no_begin
  case no_command =>
    exact absent _ (by decide) (by decide) fun p member => (all p member).no_command
  case no_double_brace =>
    exact absent _ (by decide) (by decide) fun p member => (all p member).no_double_brace

end IsParagraph

/-- A text with dollars for its delimiters and with its bare script characters escaped. -/
def respell (text : Text) : Text :=
  Script.escapeBare (Delimiter.toDollars text)

theorem respell_append_break (left right : Text) :
    respell (left ++ '\n' :: '\n' :: right) = respell left ++ '\n' :: '\n' :: respell right := by
  have breaks : ∀ left right : Text, respell (left ++ '\n' :: right) =
      respell left ++ '\n' :: respell right := by
    intro left right
    rw [respell, Delimiter.toDollars_append_cons left right (by decide) (by decide),
      Script.escapeBare, Script.escapeFrom_append_cons false _ _ (by decide) (by decide)]
    rfl
  have front := breaks [] right
  rw [List.nil_append] at front
  rw [breaks left, front]
  rfl

theorem isFlush_respell {text : Text} (flush : Text.IsFlush text) : Text.IsFlush (respell text) :=
  Script.isFlush_escapeFrom false (Delimiter.isFlush_toDollars flush)

theorem length_chunks_settle_respell (text : Text) :
    (Marker.chunks (Layout.settle (respell text))).length =
      (Marker.offsets (Delimiter.dollarBlocks (Delimiter.dollarInline text))).length + 1 := by
  have settled := Marker.KeepsMarkers.of_thinsLineEnds (Layout.thinsLineEnds_settle (respell text))
  have escaped := Marker.KeepsMarkers.escapeFrom false (Delimiter.toDollars text)
  rw [settled.length_chunks, respell, Script.escapeBare, escaped.length_chunks,
    Marker.length_chunks_eq, Delimiter.dollarBlocks_dollarInline]

namespace IsParagraph

variable {text : Text}

/-- Only delimiters, script characters and blank characters are edited in a paragraph. -/
theorem convert_eq (paragraph : IsParagraph text) :
    convert text = Layout.normalize (respell text) := by
  have absent : ∀ word : Text, '$' ∉ word → ¬ word <:+: text →
      ¬ word <:+: Delimiter.toDollars text := fun word noDollar none inside =>
    none ((Delimiter.infix_of_infix_toDollars noDollar).2 inside)
  have noBegin := absent _ (by decide) paragraph.no_begin
  have noCommand : ¬ DisplayStyle.command <:+: Delimiter.toDollars text :=
    absent _ (by decide) paragraph.no_command
  have single : Brace.HasSingleBraces (Layout.normalize (respell text)) := by
    have braces : ∀ c ∈ ['\x7b', '\x7b'], Text.isBlank c = false ∧ Script.isScript c = false := by
      have brace : Text.isBlank '\x7b' = false ∧ Script.isScript '\x7b' = false := by decide
      simpa using brace
    have visible := fun c member => (braces c member).1
    refine Brace.hasSingleBraces_of_absent fun inside => ?_
    have escaped := Layout.infix_of_visible_infix_normalize (by decide) visible inside
    have dollars := (Script.infix_escapeFrom_iff (fun c member => (braces c member).2) (by decide)
      false _).2.mp escaped
    exact absent _ (by decide) paragraph.no_double_brace dollars
  have flush := Layout.isFlush_normalize (isFlush_respell paragraph.isFlush)
  rw [convert_eq_applyAll]
  change Text.strip (Brace.dropDoubled (Layout.normalize (Script.escapeBare
    (DisplayStyle.dropCommands (Matrix.blockMatrices (Environment.blockAligned
      (Delimiter.dollarBlocks (Delimiter.dollarInline text)))))))) = _
  rw [Delimiter.dollarBlocks_dollarInline, Environment.blockAligned_of_no_begin noBegin,
    Matrix.blockMatrices_of_no_begin noBegin, DisplayStyle.dropCommands_eq_self_iff.mpr noCommand,
    ← respell, Brace.dropDoubled_eq_self_iff.mpr single, flush.strip_eq_self]

end IsParagraph

/-- Behind paragraphs that leave no block open, the next one is normalised by itself. -/
theorem normalize_respell_joinParagraphs {paragraphs : List Text} (nonempty : paragraphs ≠ [])
    (flush : ∀ paragraph ∈ paragraphs, Text.IsFlush paragraph)
    (closed : ∀ paragraph ∈ paragraphs.dropLast,
      Even (Marker.offsets (Delimiter.dollarBlocks (Delimiter.dollarInline paragraph))).length) :
    Layout.normalize (respell (joinParagraphs paragraphs)) =
      joinParagraphs (paragraphs.map fun paragraph => Layout.normalize (respell paragraph)) := by
  induction paragraphs with
  | nil => exact absurd rfl nonempty
  | cons paragraph paragraphs ih =>
      by_cases more : paragraphs = []
      · subst more
        simp
      · rw [List.dropLast_cons_of_ne_nil more, List.forall_mem_cons] at closed
        rw [List.forall_mem_cons] at flush
        have whole :
            Odd (Marker.chunks (Layout.settle (respell paragraph))).length := by
          rw [length_chunks_settle_respell]
          exact closed.1.add_one
        have behind := isFlush_respell (isFlush_joinParagraphs more flush.2)
        rw [joinParagraphs_cons _ more, respell_append_break,
          Layout.normalize_append_break (isFlush_respell flush.1) behind whole,
          ih more flush.2 closed.2, List.map_cons, joinParagraphs_cons _ (by simpa using more)]

/-- Paragraphs are converted independently when none but the last leaves a block open; a formula
in the sentence may be left open in each. -/
theorem convert_joinParagraphs {paragraphs : List Text}
    (all : ∀ paragraph ∈ paragraphs, IsParagraph paragraph)
    (closed : ∀ paragraph ∈ paragraphs.dropLast,
      Even (Marker.offsets (Delimiter.dollarBlocks (Delimiter.dollarInline paragraph))).length) :
    convert (joinParagraphs paragraphs) = joinParagraphs (paragraphs.map convert) := by
  by_cases empty : paragraphs = []
  · subst empty
    rfl
  · have each : paragraphs.map convert =
        paragraphs.map fun paragraph => Layout.normalize (respell paragraph) :=
      List.map_congr_left fun paragraph member => (all paragraph member).convert_eq
    rw [(IsParagraph.join empty all).convert_eq, each,
      normalize_respell_joinParagraphs empty
        (fun paragraph member => (all paragraph member).isFlush) closed]

/-- A formula in the sentence is left open before a displayed formula and a block that does not
end. -/
theorem convert_joinParagraphs_of_open_formula :
    convert "It costs $5 a_\n\n\\[\nx\n\\] or \\(y\\)\n\n$$\nz" =
      Text.ofString "It costs $5 a\\_\n\n$$x$$ or $y$\n\n$$z" := by
  have each : ["It costs $5 a_", "\\[\nx\n\\] or \\(y\\)", "$$\nz"].map (convert ∘ Text.ofString) =
      [Text.ofString "It costs $5 a\\_", "$$x$$ or $y$", "$$z"] := by decide +kernel
  have apart := @convert_joinParagraphs
    ["It costs $5 a_", "\\[\nx\n\\] or \\(y\\)", "$$\nz"] (by decide) (by decide +kernel)
  exact apart.trans (congrArg joinParagraphs each)

end DollarMath
