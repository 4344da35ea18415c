import DollarMath.Proofs.Conversion

/-!
# Documents

A document is prose with formulas in its sentences and displayed formulas.  Its source has the
formulas between LaTeX delimiters.  The conversion is followed from the source to the text in
which dollars are the delimiters and the content of each displayed formula is pulled up to them;
the reader of the dollars is outside every formula where a segment ends.
-/

namespace DollarMath

/-- A part of a document. -/
inductive Segment where
  /-- Text outside of formulas. -/
  | prose (content : Text)
  /-- A formula in a sentence. -/
  | inline (content : Text)
  /-- A displayed formula. -/
  | display (content : Text)
  deriving DecidableEq, Repr

section Breaks

/-- The longest piece at the front of a text that is blank up to a line break at its end. -/
def leadingPiece (text : Text) : Text :=
  (text.inits.reverse.find? fun piece =>
    piece.getLast? == some '\n' && Text.isBlankText piece).getD []

/-- The longest piece at the end of a text that is blank behind a line break at its front. -/
def trailingPiece (text : Text) : Text :=
  (text.tails.find? fun piece => piece.head? == some '\n' && Text.isBlankText piece).getD []

/-- A text without its leading piece and then without its trailing one. -/
def withoutBreaks (text : Text) : Text :=
  let inner := text.drop (leadingPiece text).length
  inner.take (inner.length - (trailingPiece inner).length)

theorem endsTight_iff {text : Text} :
    Layout.EndsTight text ↔
      ∀ rest run, text = rest ++ '\n' :: run → ¬ Text.isBlankText run := by
  constructor
  · rintro tight rest run rfl blank
    exact Layout.not_endsTight_append blank rest tight
  · intro none
    rcases Layout.dropTrailingBreaks_cases text with ⟨tight, _⟩ | ⟨rest, run, blank, _, parts, _⟩
    · exact tight
    · exact absurd blank (none rest run parts)

theorem trailingPiece_cons (c : Char) (text : Text) :
    trailingPiece (c :: text) =
      if c = '\n' ∧ Text.isBlankText (c :: text) then c :: text else trailingPiece text := by
  rw [trailingPiece, List.tails_cons, List.find?_cons]
  by_cases longest : c = '\n' ∧ Text.isBlankText (c :: text) = true
  · have found : ((c :: text).head? == some '\n' && Text.isBlankText (c :: text)) = true := by
      simpa using longest
    rw [if_pos longest, found]
    rfl
  · have shorter : ((c :: text).head? == some '\n' && Text.isBlankText (c :: text)) = false := by
      simpa using longest
    rw [if_neg longest, shorter]
    rfl

/-- The longest trailing piece starts at the first break behind the visible characters. -/
theorem trailingPiece_append {rest run : Text} (tight : Layout.EndsTight rest)
    (blank : Text.isBlankText run) : trailingPiece (rest ++ '\n' :: run) = '\n' :: run := by
  have newline : Text.isBlank '\n' = true := by decide
  induction rest with
  | nil =>
      have whole : Text.isBlankText ('\n' :: run) := by
        simpa [Text.isBlankText, newline] using blank
      rw [List.nil_append, trailingPiece_cons, if_pos ⟨rfl, whole⟩]
  | cons c rest ih =>
      rw [endsTight_iff] at tight
      have later : Layout.EndsTight rest := by
        rw [endsTight_iff]
        intro front run parts
        exact tight (c :: front) run (by rw [parts]; rfl)
      have longer : ¬ (c = '\n' ∧ Text.isBlankText (c :: (rest ++ '\n' :: run))) := by
        rintro ⟨rfl, all⟩
        refine tight [] rest rfl ?_
        simp only [Text.isBlankText, List.all_cons, List.all_append, Bool.and_eq_true] at all
        exact all.2.1
      rw [List.cons_append, trailingPiece_cons, if_neg longer, ih later]

theorem trailingPiece_of_endsTight {text : Text} (tight : Layout.EndsTight text) :
    trailingPiece text = [] := by
  rw [trailingPiece, List.find?_eq_none.mpr]
  · rfl
  · intro piece member
    obtain ⟨rest, parts⟩ := (List.mem_tails piece text).mp member
    cases piece with
    | nil => simp
    | cons c run =>
        simp only [List.head?_cons, Bool.and_eq_true, beq_iff_eq, Option.some.injEq, not_and]
        rintro rfl blank
        simp only [Text.isBlankText, List.all_cons, Bool.and_eq_true] at blank
        exact endsTight_iff.mp tight rest run parts.symm blank.2

theorem dropTrailingBreaks_eq_take (text : Text) :
    Layout.dropTrailingBreaks text = text.take (text.length - (trailingPiece text).length) := by
  rcases Layout.dropTrailingBreaks_cases text with
    ⟨tight, same⟩ | ⟨rest, run, blank, tight, parts, dropped⟩
  · rw [same, trailingPiece_of_endsTight tight]
    simp
  · rw [dropped, parts, trailingPiece_append tight blank]
    simp

theorem leadingPiece_eq_reverse (text : Text) :
    leadingPiece text = (trailingPiece text.reverse).reverse := by
  have pieces : text.inits.reverse = text.reverse.tails.map List.reverse := by
    rw [List.map_reverse_tails, List.reverse_reverse]
  rw [leadingPiece, trailingPiece, pieces, List.find?_map]
  have same : ((fun piece : Text => piece.getLast? == some '\n' && Text.isBlankText piece) ∘
      List.reverse) = fun piece => piece.head? == some '\n' && Text.isBlankText piece := by
    funext piece
    simp [Text.isBlankText]
  rw [same]
  generalize text.reverse.tails.find? _ = found
  cases found with
  | none => rfl
  | some piece => rfl

theorem trailingPiece_suffix (text : Text) : trailingPiece text <:+ text := by
  rw [trailingPiece]
  generalize same : text.tails.find? _ = found
  cases found with
  | none => exact List.nil_suffix
  | some piece => exact (List.mem_tails piece text).mp (List.mem_of_find?_eq_some same)

theorem dropLeadingBreaks_eq_drop (text : Text) :
    Layout.dropLeadingBreaks text = text.drop (leadingPiece text).length := by
  have reversed := dropTrailingBreaks_eq_take text.reverse
  have bound := (trailingPiece_suffix text.reverse).length_le
  rw [List.length_reverse] at bound
  rw [Layout.dropTrailingBreaks, List.reverse_reverse, List.reverse_eq_iff, List.take_reverse,
    List.reverse_reverse, List.length_reverse] at reversed
  rw [reversed, leadingPiece_eq_reverse, List.length_reverse]
  congr 1
  omega

/-- The stage drops the longest pieces of the two forms. -/
theorem withoutBreaks_eq (text : Text) :
    withoutBreaks text = Layout.dropTrailingBreaks (Layout.dropLeadingBreaks text) := by
  rw [withoutBreaks, dropTrailingBreaks_eq_take, dropLeadingBreaks_eq_drop]

end Breaks

namespace Segment

/-- How a segment is written in the source. -/
def source : Segment → Text
  | .prose content => content
  | .inline content => "\\(" ++ content ++ "\\)"
  | .display content => "\\[" ++ content ++ "\\]"

/-- A segment with dollars in place of its delimiters. -/
def dollars : Segment → Text
  | .prose content => content
  | .inline content => "$" ++ content ++ "$"
  | .display content => "$$" ++ content ++ "$$"

/-- What a segment is converted to: the content of a displayed formula loses its breaks. -/
def converted : Segment → Text
  | .prose content => content
  | .inline content => "$" ++ content ++ "$"
  | .display content => "$$" ++ withoutBreaks content ++ "$$"

/-- The text of a segment. -/
def content : Segment → Text
  | .prose content | .inline content | .display content => content

/-- Whether a delimiter behind the segment's content is one: a formula in a sentence is not empty
and stays on its line, and no content ends in a backslash that would escape what follows it. -/
def IsClosed : Segment → Prop
  | .prose content => content.getLast? ≠ some '\\'
  | .inline content => content ≠ [] ∧ '\n' ∉ content ∧ content.getLast? ≠ some '\\'
  | .display content => (Text.stripEnd content).getLast? ≠ some '\\'

instance : DecidablePred IsClosed
  | .prose content => inferInstanceAs (Decidable (content.getLast? ≠ some '\\'))
  | .inline content =>
      inferInstanceAs (Decidable (content ≠ [] ∧ '\n' ∉ content ∧ content.getLast? ≠ some '\\'))
  | .display content =>
      inferInstanceAs (Decidable ((Text.stripEnd content).getLast? ≠ some '\\'))

theorem getLast?_content_ne {segment : Segment} (closed : segment.IsClosed) :
    segment.content.getLast? ≠ some '\\' := by
  cases segment with
  | prose content => exact closed
  | inline content => exact closed.2.2
  | display content =>
      intro last
      refine closed ?_
      rw [Text.getLast?_stripEnd]
      exact Text.lastVisible_eq_of_getLast? (by decide) last

/-- Whether the segment is no formula in a sentence, or one that is not empty and stays on its
line. -/
def IsOnLine : Segment → Prop
  | .inline content => content ≠ [] ∧ '\n' ∉ content
  | .prose _ | .display _ => True

theorem IsClosed.isOnLine {segment : Segment} (closed : segment.IsClosed) : segment.IsOnLine := by
  cases segment with
  | prose content => trivial
  | inline content => exact ⟨closed.1, closed.2.1⟩
  | display content => trivial

/-- The delimiters of a segment, and nothing else in it, become dollars. -/
theorem toDollars_source_append {segment : Segment}
    (unescaped : segment.content.getLast? ≠ some '\\')
    (absent : ∀ word ∈ Delimiter.words, ¬ word <:+: segment.content) (rest : Text) :
    Delimiter.toDollars (segment.source ++ rest) =
      segment.dollars ++ Delimiter.toDollars rest := by
  have kept := Delimiter.toDollars_append_of_absent absent unescaped
  cases segment with
  | prose text => exact kept rest
  | inline text =>
      have opening : ∀ text : Text, Delimiter.toDollars ("\\(" ++ text) =
          "$" ++ Delimiter.toDollars text := fun text => Delimiter.toDollars_delimiter rfl text
      have closing : ∀ text : Text, Delimiter.toDollars ("\\)" ++ text) =
          "$" ++ Delimiter.toDollars text := fun text => Delimiter.toDollars_delimiter rfl text
      simp only [source, dollars, content, List.append_assoc] at kept ⊢
      rw [opening, kept, closing]
  | display text =>
      have opening : ∀ text : Text, Delimiter.toDollars ("\\[" ++ text) =
          "$$" ++ Delimiter.toDollars text := fun text => Delimiter.toDollars_delimiter rfl text
      have closing : ∀ text : Text, Delimiter.toDollars ("\\]" ++ text) =
          "$$" ++ Delimiter.toDollars text := fun text => Delimiter.toDollars_delimiter rfl text
      simp only [source, dollars, content, List.append_assoc] at kept ⊢
      rw [opening, kept, closing]

/-- The chunks of a text in front of which the segment is put with its dollars. -/
def chunksBefore : Segment → List Text → List Text
  | .display content, chunks => [] :: content :: chunks
  | .prose content, chunks => chunks.modifyHead (content ++ ·)
  | .inline content, chunks => chunks.modifyHead ((['$'] ++ content ++ ['$']) ++ ·)

/-- Outside of every formula a segment is read as a whole. -/
theorem split_dollars_append {segment : Segment} (onLine : segment.IsOnLine)
    (noDollar : '$' ∉ segment.content) (unescaped : segment.content.getLast? ≠ some '\\')
    (rest : Text) :
    Marker.split .prose false (segment.dollars ++ rest) =
      segment.chunksBefore (Marker.split .prose false rest) := by
  cases segment with
  | prose text => exact Marker.split_prose_append noDollar unescaped rest
  | inline text =>
      have parts : dollars (.inline text) ++ rest = '$' :: (text ++ '$' :: rest) := by
        simp [dollars, Text.ofString]
      rw [parts]
      exact Marker.split_prose_formula onLine.1 onLine.2 noDollar unescaped rest
  | display text =>
      have parts : dollars (.display text) ++ rest =
          '$' :: '$' :: (text ++ '$' :: '$' :: rest) := by
        simp [dollars, Text.ofString]
      rw [parts]
      exact Marker.split_prose_block noDollar unescaped rest

/-- What tightening the blocks of a text makes of it, outside of every formula. -/
theorem tighten_split_dollars {segment : Segment} (closed : segment.IsClosed)
    (noDollar : '$' ∉ segment.content) (rest : Text) :
    Marker.join (Layout.tightenBlocks (Marker.split .prose false (segment.dollars ++ rest))) =
      segment.converted ++
        Marker.join (Layout.tightenBlocks (Marker.split .prose false rest)) := by
  have nonempty := Layout.tightenBlocks_ne_nil (Marker.split_ne_nil .prose false rest)
  rw [split_dollars_append closed.isOnLine noDollar (getLast?_content_ne closed)]
  cases segment with
  | prose text =>
      rw [chunksBefore, Layout.tightenBlocks_modifyHead, Marker.join_modifyHead _ nonempty]
      rfl
  | inline text =>
      rw [chunksBefore, Layout.tightenBlocks_modifyHead, Marker.join_modifyHead _ nonempty]
      simp [converted, Text.ofString]
  | display text =>
      rw [chunksBefore, Layout.tightenBlocks_block _ _ (Marker.split_ne_nil .prose false rest),
        Marker.join_cons _ (List.cons_ne_nil _ _), Marker.join_cons _ nonempty,
        ← withoutBreaks_eq]
      simp [converted, Text.ofString]

end Segment

/-- A document as the list of its segments. -/
abbrev Document := List Segment

namespace Document

/-- The text that a document is written as. -/
def source (document : Document) : Text :=
  document.flatMap Segment.source

/-- The document with dollars in place of its delimiters. -/
def dollars (document : Document) : Text :=
  document.flatMap Segment.dollars

/-- The document with its segments converted one by one. -/
def converted (document : Document) : Text :=
  document.flatMap Segment.converted

/-- A document whose segments are told apart by their delimiters and hold nothing that a stage of
the conversion changes, apart from the breaks in displayed formulas. -/
structure IsPlain (document : Document) : Prop where
  /-- Every delimiter behind a content closes it. -/
  closed : ∀ segment ∈ document, segment.IsClosed
  /-- The only delimiters are those of the formulas. -/
  no_delimiter : ∀ segment ∈ document, ∀ word ∈ Delimiter.words, ¬ word <:+: segment.content
  /-- There are no dollars. -/
  no_dollar : '$' ∉ source document
  /-- There are no environments. -/
  no_begin : ¬ Text.ofString "\\begin" <:+: source document
  /-- There are no display-style commands. -/
  no_command : ¬ DisplayStyle.command <:+: source document
  /-- No two opening braces stand side by side. -/
  no_double_brace : ¬ ['\x7b', '\x7b'] <:+: source document
  /-- Each script character has a backslash before it or an operand behind it. -/
  no_bare_script : ∀ before c after, source document = before ++ c :: after →
    Script.isScript c = true →
      before.getLast? = some '\\' ∨ Script.hasOperand after = true
  /-- No space or tab stands before a line break. -/
  no_space_before_break : ∀ c, Text.isSpaceOrTab c = true → ¬ [c, '\n'] <:+: source document
  /-- No space or tab stands at the end. -/
  no_space_at_end : ∀ c, (source document).getLast? = some c → Text.isSpaceOrTab c = false
  /-- No run of blank characters has three line breaks. -/
  short_runs : ∀ run, run <:+: source document → Text.isBlankText run = true →
    run.count '\n' < 3

variable {document : Document}

theorem toDollars_source
    (unescaped : ∀ segment ∈ document, segment.content.getLast? ≠ some '\\')
    (absent : ∀ segment ∈ document, ∀ word ∈ Delimiter.words, ¬ word <:+: segment.content) :
    Delimiter.toDollars (source document) = dollars document := by
  induction document with
  | nil => rfl
  | cons segment document ih =>
      rw [List.forall_mem_cons] at unescaped absent
      have later : Delimiter.toDollars (source document) = dollars document :=
        ih unescaped.2 absent.2
      rw [source, List.flatMap_cons, Segment.toDollars_source_append unescaped.1 absent.1,
        ← source, later]
      rfl

theorem tighten_split_dollars (closed : ∀ segment ∈ document, segment.IsClosed)
    (noDollar : ∀ segment ∈ document, '$' ∉ segment.content) :
    Marker.join (Layout.tightenBlocks (Marker.split .prose false (dollars document))) =
      converted document := by
  induction document with
  | nil => rfl
  | cons segment document ih =>
      rw [List.forall_mem_cons] at closed noDollar
      have later : Marker.join (Layout.tightenBlocks (Marker.split .prose false
          (dollars document))) = converted document := ih closed.2 noDollar.2
      rw [dollars, List.flatMap_cons, Segment.tighten_split_dollars closed.1 noDollar.1, ← dollars,
        later]
      rfl

theorem not_mem_content (noDollar : '$' ∉ source document) :
    ∀ segment ∈ document, '$' ∉ segment.content := by
  intro segment member inside
  refine noDollar (List.mem_flatMap.mpr ⟨segment, member, ?_⟩)
  cases segment with
  | prose content => exact inside
  | inline content => exact List.mem_append_left _ (List.mem_append_right _ inside)
  | display content => exact List.mem_append_left _ (List.mem_append_right _ inside)

namespace IsPlain

variable (plain : IsPlain document)

include plain

theorem toDollars_source : Delimiter.toDollars (source document) = dollars document :=
  Document.toDollars_source
    (fun segment member => Segment.getLast?_content_ne (plain.closed segment member))
    plain.no_delimiter

theorem infix_source {word : Text} (noDollar : '$' ∉ word) (inside : word <:+: dollars document) :
    word <:+: source document := by
  rw [← plain.toDollars_source] at inside
  exact (Delimiter.infix_of_infix_toDollars noDollar).2 inside

theorem blockAligned_dollars : Environment.blockAligned (dollars document) = dollars document := by
  refine Environment.blockAligned_of_no_begin fun inside => ?_
  exact plain.no_begin (plain.infix_source (by decide) inside)

theorem blockMatrices_dollars : Matrix.blockMatrices (dollars document) = dollars document := by
  refine Matrix.blockMatrices_of_no_begin fun inside => ?_
  exact plain.no_begin (plain.infix_source (by decide) inside)

theorem dropCommands_dollars : DisplayStyle.dropCommands (dollars document) = dollars document := by
  rw [DisplayStyle.dropCommands_eq_self_iff]
  exact fun inside => plain.no_command (plain.infix_source (by decide) inside)

theorem escapeBare_dollars : Script.escapeBare (dollars document) = dollars document := by
  rw [← plain.toDollars_source]
  refine Script.escapeFrom_toDollars ?_
  rw [Script.escapeFrom_eq_self_iff]
  intro before c after parts script
  refine (plain.no_bare_script before c after parts script).imp_left fun last => ?_
  exact Text.escapedBehind_eq_true_iff.mpr (.inl last)

theorem trimLineEnds_dollars : Layout.trimLineEnds (dollars document) = dollars document := by
  rw [Layout.trimLineEnds_eq_self_iff]
  constructor
  · intro c space inside
    have blank := Layout.isBlankText_pair (Text.isBlank_of_isSpaceOrTab space)
    have noDollar : '$' ∉ [c, '\n'] := Text.not_mem_of_isBlankText blank (by decide)
    exact plain.no_space_before_break c space (plain.infix_source noDollar inside)
  · intro c last
    rw [← plain.toDollars_source] at last
    rcases Delimiter.getLast?_toDollars (source document) with dollar | same
    · rw [dollar, Option.some.injEq] at last
      rw [← last]
      decide
    · exact plain.no_space_at_end c (same.symm.trans last)

theorem shortRuns_dollars : Layout.ShortRuns (dollars document) := by
  intro run inside blank
  have noDollar : '$' ∉ run := Text.not_mem_of_isBlankText blank (by decide)
  have few := plain.short_runs run (plain.infix_source noDollar inside) blank
  omega

theorem normalize_dollars : Layout.normalize (dollars document) = converted document := by
  rw [Layout.normalize, plain.trimLineEnds_dollars,
    Layout.closeRuns_eq_self_iff.mpr plain.shortRuns_dollars, Marker.chunks_eq_split,
    tighten_split_dollars plain.closed (not_mem_content plain.no_dollar)]

theorem dropDoubled_converted : Brace.dropDoubled (converted document) = converted document := by
  rw [Brace.dropDoubled_eq_self_iff]
  refine Brace.hasSingleBraces_of_absent fun inside => ?_
  rw [← plain.normalize_dollars] at inside
  have before := Layout.infix_of_infix_normalize (by decide) inside
  rw [plain.trimLineEnds_dollars,
    Layout.closeRuns_eq_self_iff.mpr plain.shortRuns_dollars] at before
  exact plain.no_double_brace (plain.infix_source (by decide) before)

end IsPlain

/-- Converting a plain document converts its segments one by one and strips the result. -/
theorem convert_source (plain : IsPlain document) :
    convert (source document) = Text.strip (converted document) := by
  rw [convert_eq_applyAll]
  change Text.strip (Brace.dropDoubled (Layout.normalize (Script.escapeBare
    (DisplayStyle.dropCommands (Matrix.blockMatrices (Environment.blockAligned
      (Delimiter.dollarBlocks (Delimiter.dollarInline (source document))))))))) = _
  rw [Delimiter.dollarBlocks_dollarInline, plain.toDollars_source, plain.blockAligned_dollars,
    plain.blockMatrices_dollars, plain.dropCommands_dollars, plain.escapeBare_dollars,
    plain.normalize_dollars, plain.dropDoubled_converted]

/-- Two formulas side by side and two displayed ones, the first of which has breaks to lose. -/
theorem convert_source_of_neighbours :
    convert "Let \\(a_1\\)\\(b\\) be\n\\[\nx^2\n\n\\]\\[y\\]" =
      Text.ofString "Let $a_1$$b$ be\n$$x^2$$$$y$$" := by
  have plain : IsPlain [.prose "Let ", .inline "a_1", .inline "b", .prose " be\n",
      .display "\nx^2\n\n", .display "y"] := by
    constructor
    case closed => decide
    case no_delimiter => decide
    case no_dollar => decide
    case no_begin => decide
    case no_command => decide
    case no_double_brace => decide
    case no_bare_script =>
      intro before c after parts script
      have escaped := Script.escapeFrom_eq_self_iff.mp
        (by decide : Script.escapeFrom false _ = _) before c after parts script
      simpa [Text.escapedBehind_eq_true_iff] using escaped
    case no_space_before_break => exact (Layout.trimLineEnds_eq_self_iff.mp (by decide)).1
    case no_space_at_end => exact (Layout.trimLineEnds_eq_self_iff.mp (by decide)).2
    case short_runs =>
      intro run inside blank
      have few := Layout.closeRuns_eq_self_iff.mp (by decide) run inside blank
      omega
  exact convert_source plain

end Document

end DollarMath
