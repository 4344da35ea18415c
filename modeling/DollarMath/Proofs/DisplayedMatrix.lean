import DollarMath.Proofs.Conversion

/-!
# A matrix environment in a displayed formula

A displayed formula with one matrix environment in it is followed through all stages.  The
delimiters become markers, the matrix stage leaves the formula in one piece or cuts it into three,
and what comes behind only edits the pieces one by one.  So the markers of the converted formula
are those that the matrix stage leaves.
-/

namespace DollarMath

section Pieces

/-- Escaping is done chunk by chunk. -/
theorem escapeBare_join {chunks : List Text} (nonempty : chunks ≠ []) :
    Script.escapeBare (Marker.join chunks) = Marker.join (chunks.map Script.escapeBare) := by
  have noScript : Script.isScript '$' = false := by decide
  have noOperand : Script.startsOperand '$' = false := by decide
  have noBackslash : ('$' == '\\') = false := by decide
  induction chunks with
  | nil => exact absurd rfl nonempty
  | cons chunk chunks ih =>
      cases chunks with
      | nil => simp
      | cons next chunks =>
          have more := List.cons_ne_nil next chunks
          have second : Script.escapeFrom false ('$' :: Marker.join (next :: chunks)) =
              '$' :: Script.escapeBare (Marker.join (next :: chunks)) :=
            Script.escapeFrom_append_cons false [] _ noScript noOperand
          have escaped : (next :: chunks).map Script.escapeBare ≠ [] := by simp
          rw [List.map_cons, Marker.join_cons _ escaped, Marker.join_cons _ more, Script.escapeBare,
            Script.escapeFrom_append_cons _ _ _ noScript noOperand, noBackslash, second, ih more,
            Script.escapeBare]

theorem isInert_escapeBare {chunk : Text} (inert : Marker.IsInert chunk) :
    Marker.IsInert (Script.escapeBare chunk) := by
  constructor
  · intro member
    rcases Script.mem_escapeFrom member with same | member
    · exact absurd same (by decide)
    · exact inert.no_dollar member
  · rw [Script.escapeBare, Script.lastVisible_escapeFrom]
    exact inert.no_backslash

theorem isInert_of_thins {before after : Text} (inert : Marker.IsInert before)
    (thins : Text.Thins Text.isBlank before after) : Marker.IsInert after :=
  ⟨fun member => inert.no_dollar (thins.sublist.subset member),
    by rw [thins.lastVisible_eq]; exact inert.no_backslash⟩

/-- Inert chunks are edited one by one, and an empty chunk stays empty. -/
theorem exists_chunks_finish {chunks : List Text} (nonempty : chunks ≠ [])
    (inert : ∀ chunk ∈ chunks, Marker.IsInert chunk) :
    ∃ chunks', Text.strip (Brace.dropDoubled (Layout.normalize
        (Script.escapeBare (Marker.join chunks)))) = Marker.join chunks' ∧
      (∀ chunk ∈ chunks', Marker.IsInert chunk) ∧
      List.Forall₂ (fun before after => before = [] → after = []) chunks chunks' := by
  rw [escapeBare_join nonempty]
  obtain ⟨chunks', same, thinned⟩ := Layout.exists_chunks_of_thins (by simpa using nonempty)
    (thins_finish (Marker.join (chunks.map Script.escapeBare)))
  refine ⟨chunks', same, ?_⟩
  rw [List.forall₂_map_left_iff] at thinned
  clear same nonempty
  induction thinned with
  | nil => exact ⟨by simp, .nil⟩
  | @cons chunk chunk' chunks chunks' thins _ ih =>
      rw [List.forall_mem_cons] at inert ⊢
      obtain ⟨later, empty⟩ := ih inert.2
      refine ⟨⟨isInert_of_thins (isInert_escapeBare inert.1) thins, later⟩, .cons ?_ empty⟩
      rintro rfl
      exact thins.eq_nil

end Pieces

namespace Matrix

/-- A displayed formula with a matrix environment between two texts. -/
def formula (name before body behind : Text) : Text :=
  "\\[" ++ before ++ Environment.source ⟨name, body⟩ ++ behind ++ "\\]"

section Formula

variable {name before body behind : Text} (member : name ∈ names) (plainBefore : IsPlain before)
  (plainBody : IsPlain body) (plain : IsPlain behind)

theorem IsPlain.toDollars {text : Text} (plain : IsPlain text) (rest : Text) :
    Delimiter.toDollars (text ++ rest) = text ++ Delimiter.toDollars rest := by
  have unescaped : text.getLast? ≠ some '\\' := fun last =>
    (isInert_of_isPlain plain).no_backslash (Text.lastVisible_eq_of_getLast? (by decide) last)
  exact Delimiter.toDollars_append_of_absent plain.no_delimiter unescaped rest

theorem infix_content {word : Text} (noBackslash : '\\' ∉ word.tail) (nonempty : word ≠ [])
    (inside : word <:+: before ++ (Environment.source ⟨name, body⟩ ++ behind)) :
    word <:+: before ∨ word <:+: Environment.source ⟨name, body⟩ ++ behind :=
  (Text.infix_append_cons_iff noBackslash nonempty).mp inside

include member

theorem not_infix_source {letters : Text} (single : '\\' ∉ letters)
    (noBody : ¬ '\\' :: letters <:+: body) (noBehind : ¬ '\\' :: letters <:+: behind)
    (noBegin : ¬ '\\' :: letters <+: Environment.source ⟨name, body⟩ ++ behind)
    (noEnd : ¬ '\\' :: letters <+: Environment.closing name ++ behind) :
    ¬ '\\' :: letters <:+: Environment.source ⟨name, body⟩ ++ behind := by
  intro inside
  have plainName := (names_plain name member).2.1
  rcases Environment.infix_source_append single plainName inside with front | here | front | later
  · exact noBegin front
  · exact noBody here
  · exact noEnd front
  · exact noBehind later

include plainBody

theorem toDollars_source (rest : Text) :
    Delimiter.toDollars (Environment.source ⟨name, body⟩ ++ rest) =
      Environment.source ⟨name, body⟩ ++ Delimiter.toDollars rest := by
  have words : ∀ name ∈ names,
      Delimiter.toDollars (Environment.opening name) = Environment.opening name ∧
        Delimiter.toDollars (Environment.closing name) = Environment.closing name ∧
          (Environment.opening name).getLast? ≠ some '\\' ∧
            (Environment.closing name).getLast? ≠ some '\\' := by
    decide
  obtain ⟨opened, closed, openingEnd, closingEnd⟩ := words name member
  simp only [Environment.source, List.append_assoc]
  rw [Delimiter.toDollars_append _ openingEnd, opened, plainBody.toDollars,
    Delimiter.toDollars_append _ closingEnd, closed]

theorem not_command_infix_source (noBehind : ¬ DisplayStyle.command <:+: behind) :
    ¬ DisplayStyle.command <:+: Environment.source ⟨name, body⟩ ++ behind := by
  refine not_infix_source member (by decide) plainBody.no_command noBehind ?_ ?_
  · exact Text.not_prefix_of_second_ne (by decide : 'd' ≠ 'b')
  · exact Text.not_prefix_of_second_ne (by decide : 'd' ≠ 'e')

include plain

/-- No aligned environment starts in the formula. -/
theorem not_opening_infix_source {aligned : Text} (other : aligned ∈ Environment.alignedNames) :
    ¬ Environment.opening aligned <:+: Environment.source ⟨name, body⟩ ++ behind := by
  have begins : ∀ {text : Text}, ¬ Text.ofString "\\begin" <:+: text →
      ¬ Environment.opening aligned <:+: text := by
    intro text noBegin inside
    exact noBegin ((Environment.begin_prefix_opening aligned).isInfix.trans inside)
  have others : ∀ aligned ∈ Environment.alignedNames,
      '\\' ∉ aligned ∧ '\x7d' ∉ aligned ∧ aligned ∉ names := by
    decide
  obtain ⟨noBackslash, noClosing, notMatrix⟩ := others aligned other
  have letters : Environment.opening aligned =
      '\\' :: (Text.ofString "begin\x7b" ++ aligned ++ "\x7d") := rfl
  have noBody := begins plainBody.no_begin
  have noBehind := begins plain.no_begin
  rw [letters] at noBody noBehind ⊢
  refine not_infix_source member ?_ noBody noBehind ?_ ?_
  · simp [Text.ofString, noBackslash]
  · intro front
    rw [← letters, Environment.source, List.append_assoc, List.append_assoc] at front
    exact notMatrix (Environment.name_eq_of_prefix_opening noClosing
      (names_plain name member).1 front ▸ member)
  · exact Text.not_prefix_of_second_ne (by decide : 'b' ≠ 'e')

include plainBefore

theorem toDollars_formula :
    Delimiter.toDollars (formula name before body behind) =
      Marker.join [[], before ++ (Environment.source ⟨name, body⟩ ++ behind), []] := by
  have closing : Delimiter.toDollars "\\]" = Delimiter.blockMarker := rfl
  have opening : ∀ text : Text, Delimiter.toDollars ("\\[" ++ text) =
      Delimiter.blockMarker ++ Delimiter.toDollars text :=
    fun text => Delimiter.toDollars_delimiter rfl text
  simp only [formula, List.append_assoc]
  rw [opening, plainBefore.toDollars, toDollars_source member plainBody, plain.toDollars, closing,
    join_block]
  simp

theorem blockAligned_formula :
    Environment.blockAligned
        (Marker.join [[], before ++ (Environment.source ⟨name, body⟩ ++ behind), []]) =
      Marker.join [[], before ++ (Environment.source ⟨name, body⟩ ++ behind), []] := by
  rw [Environment.blockAligned_eq_self_iff]
  intro environment other inside
  have words : ∀ aligned ∈ Environment.alignedNames,
      '$' ∉ Environment.opening aligned ∧ '\\' ∉ (Environment.opening aligned).tail ∧
        Environment.opening aligned ≠ [] := by
    decide
  obtain ⟨noDollar, noBackslash, nonempty⟩ := words environment.name other
  have begins := Environment.begin_prefix_opening environment.name
  have opened : Environment.opening environment.name <:+: environment.source :=
    ⟨[], environment.body ++ Environment.closing environment.name, by simp [Environment.source]⟩
  obtain ⟨chunk, chunkMember, within⟩ :=
    Layout.exists_infix_of_infix_join noDollar nonempty (opened.trans inside)
  simp only [List.mem_cons, List.not_mem_nil, or_false] at chunkMember
  rcases chunkMember with rfl | rfl | rfl
  · exact nonempty (List.infix_nil.mp within)
  · rcases infix_content noBackslash nonempty within with here | here
    · exact plainBefore.no_begin (begins.isInfix.trans here)
    · exact not_opening_infix_source member plainBody plain other here
  · exact nonempty (List.infix_nil.mp within)

end Formula

/-- The chunks into which the matrix stage cuts a displayed formula. -/
def formulaChunks (name before body behind : Text) : List Text :=
  if IsGap before ∨ IsGap behind then
    [[], before ++ (Environment.source ⟨name, body⟩ ++ behind), []]
  else [[], before, Environment.source ⟨name, body⟩, behind, []]

section Chunks

variable {name before body behind : Text} (member : name ∈ names) (plainBefore : IsPlain before)
  (plainBody : IsPlain body) (plain : IsPlain behind)

include member plainBefore plainBody plain

theorem blockMatrices_formula :
    blockMatrices (Marker.join [[], before ++ (Environment.source ⟨name, body⟩ ++ behind), []]) =
      Marker.join (formulaChunks name before body behind) := by
  rw [formulaChunks]
  by_cases gapBefore : IsGap before
  · rw [if_pos (.inl gapBefore)]
    exact blockMatrices_of_gap_before member plainBefore plainBody plain gapBefore
  · rw [blockMatrices_of_not_gap_before member plainBefore plainBody plain gapBefore]
    by_cases gapBehind : IsGap behind
    · rw [if_pos gapBehind, if_pos (.inr gapBehind)]
    · rw [if_neg gapBehind, if_neg (by simp [gapBefore, gapBehind])]

theorem isInert_formulaChunks :
    ∀ chunk ∈ formulaChunks name before body behind, Marker.IsInert chunk := by
  rw [formulaChunks]
  split
  · simp [Marker.isInert_nil, isInert_formula member plainBefore plainBody plain]
  · simp [Marker.isInert_nil, isInert_of_isPlain plainBefore, isInert_of_isPlain plain,
      isInert_source member plainBody]

theorem dropCommands_formulaChunks :
    DisplayStyle.dropCommands (Marker.join (formulaChunks name before body behind)) =
      Marker.join (formulaChunks name before body behind) := by
  rw [DisplayStyle.dropCommands_eq_self_iff]
  intro inside
  obtain ⟨chunk, chunkMember, within⟩ :=
    Layout.exists_infix_of_infix_join (by decide) (by decide) inside
  have noSource : ∀ {rest : Text}, ¬ DisplayStyle.command <:+: rest →
      ¬ DisplayStyle.command <:+: Environment.source ⟨name, body⟩ ++ rest :=
    fun noBehind => not_command_infix_source member plainBody noBehind
  have noAlone : ¬ DisplayStyle.command <:+: Environment.source ⟨name, body⟩ := by
    have noRest : ¬ DisplayStyle.command <:+: [] := by decide
    simpa using noSource noRest
  have noEmpty : ¬ DisplayStyle.command <:+: [] := by decide
  rw [formulaChunks] at chunkMember
  split at chunkMember <;> simp only [List.mem_cons, List.not_mem_nil, or_false] at chunkMember
  · rcases chunkMember with rfl | rfl | rfl
    · exact noEmpty within
    · rcases infix_content (by decide) (by decide) within with here | here
      · exact plainBefore.no_command here
      · exact noSource plain.no_command here
    · exact noEmpty within
  · rcases chunkMember with rfl | rfl | rfl | rfl | rfl
    · exact noEmpty within
    · exact plainBefore.no_command within
    · exact noAlone within
    · exact plain.no_command within
    · exact noEmpty within

/-- Converting the formula keeps the chunks apart that the matrix stage leaves. -/
theorem exists_chunks_convert_formula :
    ∃ chunks, convert (formula name before body behind) = Marker.join chunks ∧
      (∀ chunk ∈ chunks, Marker.IsInert chunk) ∧
      List.Forall₂ (fun before after => before = [] → after = [])
        (formulaChunks name before body behind) chunks := by
  have nonempty : formulaChunks name before body behind ≠ [] := by
    rw [formulaChunks]
    split <;> simp
  have stages : convert (formula name before body behind) =
      Text.strip (Brace.dropDoubled (Layout.normalize (Script.escapeBare
        (Marker.join (formulaChunks name before body behind))))) := by
    rw [convert_eq_applyAll]
    change Text.strip (Brace.dropDoubled (Layout.normalize (Script.escapeBare
      (DisplayStyle.dropCommands (blockMatrices (Environment.blockAligned
        (Delimiter.dollarBlocks (Delimiter.dollarInline _)))))))) = _
    rw [Delimiter.dollarBlocks_dollarInline,
      toDollars_formula member plainBefore plainBody plain,
      blockAligned_formula member plainBefore plainBody plain,
      blockMatrices_formula member plainBefore plainBody plain,
      dropCommands_formulaChunks member plainBefore plainBody plain]
  rw [stages]
  exact exists_chunks_finish nonempty (isInert_formulaChunks member plainBefore plainBody plain)

/-- A displayed formula keeps its two markers when one side of the matrix environment in it is a
gap, and else the environment gets two more between them. -/
theorem offsets_convert_formula :
    (Marker.offsets (convert (formula name before body behind)) =
        [0, (convert (formula name before body behind)).length - 2] ↔
      IsGap before ∨ IsGap behind) ∧
    (¬ (IsGap before ∨ IsGap behind) →
      ∃ opening closing, Marker.offsets (convert (formula name before body behind)) =
        [0, opening, closing, (convert (formula name before body behind)).length - 2]) := by
  obtain ⟨chunks, same, inert, pieces⟩ :=
    exists_chunks_convert_formula member plainBefore plainBody plain
  rw [same]
  by_cases gap : IsGap before ∨ IsGap behind
  · rw [formulaChunks, if_pos gap] at pieces
    simp only [List.forall₂_cons_left_iff, List.forall₂_nil_left_iff] at pieces
    obtain ⟨first, _, firstEmpty, ⟨content, _, _, ⟨last, _, lastEmpty, rfl, rfl⟩, rfl⟩, rfl⟩ :=
      pieces
    obtain rfl := firstEmpty trivial
    obtain rfl := lastEmpty trivial
    have markers : Marker.offsets (Marker.join [[], content, []]) =
        [0, (Marker.join [[], content, []]).length - 2] := by
      rw [Marker.offsets_join (by simp) inert]
      simp [Marker.offsetsOf, Marker.join_cons]
      omega
    exact ⟨iff_of_true markers gap, fun noGap => absurd gap noGap⟩
  · rw [formulaChunks, if_neg gap] at pieces
    simp only [List.forall₂_cons_left_iff, List.forall₂_nil_left_iff] at pieces
    obtain ⟨first, _, firstEmpty, ⟨left, _, _, ⟨environment, _, _, ⟨right, _, _,
      ⟨last, _, lastEmpty, rfl, rfl⟩, rfl⟩, rfl⟩, rfl⟩, rfl⟩ := pieces
    obtain rfl := firstEmpty trivial
    obtain rfl := lastEmpty trivial
    have markers : Marker.offsets (Marker.join [[], left, environment, right, []]) =
        [0, left.length + 2, left.length + environment.length + 4,
          (Marker.join [[], left, environment, right, []]).length - 2] := by
      rw [Marker.offsets_join (by simp) inert]
      simp [Marker.offsetsOf, Marker.join_cons]
      omega
    rw [markers]
    exact ⟨iff_of_false (by simp) gap, fun _ => ⟨_, _, rfl⟩⟩

end Chunks

/-- Plain text on both sides of the environment cuts the formula into three. -/
theorem offsets_convert_formula_ne :
    Text.ofString "matrix" ∈ names ∧ IsPlain "x " ∧ IsPlain "1" ∧ IsPlain " y" ∧
      Marker.offsets (convert (formula "matrix" "x " "1" " y")) ≠
        [0, (convert (formula "matrix" "x " "1" " y")).length - 2] :=
  ⟨by decide, by decide, by decide, by decide, by decide +kernel⟩

/-- A formula with a matrix at its end keeps its two markers. -/
theorem offsets_convert_formula_of_matrix_last :
    Marker.offsets (convert (formula "pmatrix" "A = " "1" "\n")) =
      [0, (convert (formula "pmatrix" "A = " "1" "\n")).length - 2] :=
  (offsets_convert_formula (by decide) (by decide) (by decide) (by decide)).1.mpr
    (.inr (by decide))

end Matrix

end DollarMath
