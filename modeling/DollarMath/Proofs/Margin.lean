import DollarMath.Proofs.Conversion
import DollarMath.Proofs.Markup.Interrupted
import DollarMath.Proofs.Markup.Seam
import DollarMath.Proofs.Text.Margin

/-!
# Margins of a converted text

Blank characters before and behind a text do nothing to its conversion.  The stages up to the
layout keep what stands before the text, and what stands behind it too, unless a display-style
command takes it along.  The layout may take some of both, and what is left the last stage strips.
-/

namespace DollarMath

namespace Delimiter

theorem keepsMargins_replace {letter : Char} {dollars : Text}
    (delimiter : dollars? letter = some dollars) : Text.KeepsMargins (replace letter dollars) := by
  refine (Pattern.seesNoMargin_word (by simp) ?_).keepsMargins_substitute _
  rcases dollars?_eq_some_iff.mp delimiter with ⟨rfl | rfl, _⟩ | ⟨rfl | rfl, _⟩ <;> decide

theorem keepsMargins_dollarInline : Text.KeepsMargins dollarInline :=
  (keepsMargins_replace rfl).comp (keepsMargins_replace rfl)

theorem keepsMargins_dollarBlocks : Text.KeepsMargins dollarBlocks :=
  (keepsMargins_replace rfl).comp (keepsMargins_replace rfl)

end Delimiter

namespace Environment

variable {trail : Text}

theorem readNamed?_append {name : Text} (opens : Text.isVisibleText (opening name))
    (closes : Text.isVisibleText (closing name)) (text : Text) (blank : Text.isBlankText trail) :
    readNamed? name (text ++ trail) =
      (readNamed? name text).map fun (environment, rest) => (environment, rest ++ trail) := by
  have nonempty : closing name ≠ [] := by simp [closing, Text.ofString]
  rw [readNamed?, Text.after?_append_of_isBlankText opens blank, readNamed?]
  cases Text.after? (opening name) text with
  | none => rfl
  | some inside =>
      rw [Option.map_some, Option.bind_some, Option.bind_some,
        Text.cut?_append_of_isBlankText closes blank nonempty, Option.map_map, Option.map_map]
      rfl

theorem read?_append {names : List Text}
    (visible : ∀ name ∈ names,
      Text.isVisibleText (opening name) ∧ Text.isVisibleText (closing name))
    (text : Text) (blank : Text.isBlankText trail) :
    read? names (text ++ trail) =
      (read? names text).map fun (environment, rest) => (environment, rest ++ trail) := by
  rw [read?, read?]
  induction names with
  | nil => rfl
  | cons name names ih =>
      rw [List.forall_mem_cons] at visible
      rw [List.findSome?_cons, List.findSome?_cons,
        readNamed?_append visible.1.1 visible.1.2 text blank]
      cases readNamed? name text with
      | none => exact ih visible.2
      | some found => rfl

theorem seesNoMargin_aligned : aligned.SeesNoMargin where
  lead c text blank := by
    cases read : aligned.read? (c :: text) with
    | none => rfl
    | some found =>
        have first := (List.cons_prefix_cons.mp (begin_prefix_of_read? read)).1
        rw [← first] at blank
        exact absurd blank (by decide)
  trail text _ blank := read?_append (by decide) text blank

theorem keepsMargins_blockAligned : Text.KeepsMargins blockAligned :=
  seesNoMargin_aligned.keepsMargins_substitute _

end Environment

namespace Matrix

section Reading

variable {trail : Text}

theorem readClosed?_of_isBlankText (blank : Text.isBlankText trail) : readClosed? trail = none := by
  refine readClosed?_eq_none fun front => ?_
  have member : '\\' ∈ trail := front.subset (by decide)
  exact Text.not_mem_of_isBlankText blank (by decide) member

theorem isBlankText_readGap {text : Text} (blank : Text.isBlankText text) :
    Text.isBlankText (readGap text).2 := by
  refine Text.isBlankText_of_subset (fun c member => ?_) blank
  rw [← readGap_append text]
  exact List.mem_append_right _ member

theorem after?_readGap_append (text : Text) (blank : Text.isBlankText trail) :
    (Text.after? Delimiter.blockMarker (readGap (text ++ trail)).2 = none ∧
        Text.after? Delimiter.blockMarker (readGap text).2 = none) ∨
      readGap (text ++ trail) = ((readGap text).1, (readGap text).2 ++ trail) := by
  by_cases empty : Text.isBlankText text
  · left
    have none : ∀ text : Text, Text.isBlankText text →
        Text.after? Delimiter.blockMarker (readGap text).2 = none := by
      intro text blank
      rw [Text.after?_eq_none_iff]
      intro front
      have member : '$' ∈ (readGap text).2 := front.subset (by decide)
      exact Text.not_mem_of_isBlankText (isBlankText_readGap blank) (by decide) member
    exact ⟨none _ (Text.isBlankText_append empty blank), none _ empty⟩
  · exact .inr (readGap_append_right empty trail)

theorem readClosed?_append (text : Text) (blank : Text.isBlankText trail) :
    readClosed? (text ++ trail) =
      (readClosed? text).map fun (environment, closing, rest) =>
        (environment, closing, rest ++ trail) := by
  have marker : Text.isVisibleText Delimiter.blockMarker := by decide
  rw [readClosed?, Environment.read?_append (by decide) text blank, readClosed?, Option.map_map,
    Option.map_map]
  congr 1
  funext found
  obtain ⟨environment, rest⟩ := found
  simp only [Function.comp_apply]
  rcases after?_readGap_append rest blank with ⟨none, none'⟩ | same
  · rw [none, none']
  · rw [same]
    simp only [Text.after?_append_of_isBlankText marker blank]
    cases Text.after? Delimiter.blockMarker (readGap rest).2 <;> rfl

theorem seesNoMargin_occurrences : occurrences.SeesNoMargin where
  lead c text blank := by
    have first : ∀ {d : Char} {word : Text}, Text.isBlank d = false → ¬ d :: word <+: c :: text :=
      fun visible front =>
        Text.ne_of_isBlank blank visible (List.cons_prefix_cons.mp front).1.symm
    rw [read?_of_unopened (first (by decide)), readClosed?_eq_none (first (by decide)),
      Option.map_none]
  trail text trail blank := by
    have marker : Text.isVisibleText Delimiter.blockMarker := by decide
    change read? (text ++ trail) = (read? text).map _
    rw [read?, Text.after?_append_of_isBlankText marker blank, read?]
    cases Text.after? Delimiter.blockMarker text with
    | none =>
        simp only [Option.map_none, readClosed?_append text blank, Option.map_map]
        rfl
    | some inside =>
        simp only [Option.map_some]
        by_cases empty : Text.isBlankText inside
        · have both := Text.isBlankText_append empty blank
          rw [readClosed?_of_isBlankText (isBlankText_readGap both),
            readClosed?_of_isBlankText (isBlankText_readGap empty)]
          rfl
        · rw [readGap_append_right empty]
          simp only [readClosed?_append _ blank, Option.map_map]
          rfl

end Reading

section Markers

/-- Whether an occurrence is displayed does not change when it moves with the markers. -/
theorem isDisplayed_succ (markers : List Nat) (offset : Nat) (occurrence : Occurrence) :
    occurrence.isDisplayed (markers.map (· + 1)) (offset + 1) =
      occurrence.isDisplayed markers offset := by
  have moved : ∀ offset : Nat, (markers.map (· + 1)).idxOf? (offset + 1) =
      markers.idxOf? offset := by
    intro offset
    rw [List.idxOf?, List.findIdx?_map, List.idxOf?]
    congr 1
    funext marker
    simp
  have long : Delimiter.blockMarker.length ≤ occurrence.source.length := by
    have opened := (Environment.begin_prefix_source occurrence.environment).length_le
    have shorter : Delimiter.blockMarker.length ≤ (Text.ofString "\\begin").length := by decide
    rw [Occurrence.source, List.length_append, List.length_append]
    omega
  have behind : offset + 1 + occurrence.source.length - Delimiter.blockMarker.length =
      offset + occurrence.source.length - Delimiter.blockMarker.length + 1 := by omega
  simp only [Occurrence.isDisplayed, behind, Marker.opensAt, Marker.closesAt, moved]

theorem keepsMargins_blockMatrices : Text.KeepsMargins blockMatrices where
  lead c text blank := by
    have markers : Marker.offsets (c :: text) = (Marker.offsets text).map (· + 1) :=
      Marker.offsets_cons_of_isBlank blank text
    rw [blockMatrices, markers, Pattern.substituteAt,
      occurrences.pieces_cons (seesNoMargin_occurrences.lead c text blank), Pattern.renderFrom,
      Pattern.renderFrom_succ]
    simp only [isDisplayed_succ]
    rfl
  trail text trail blank := by
    have markers : Marker.offsets (text ++ trail) = Marker.offsets text :=
      Marker.offsets_append_of_noDollar text (Text.not_mem_of_isBlankText blank (by decide))
    refine ⟨trail, blank, ?_⟩
    rw [blockMatrices, markers, Pattern.substituteAt,
      seesNoMargin_occurrences.pieces_append text blank, Pattern.renderFrom_append_map_plain]
    rfl

end Markers

end Matrix

namespace DisplayStyle

theorem keepsMargins_dropCommands : Text.KeepsMargins dropCommands where
  lead c text blank :=
    dropCommands_cons (not_command_prefix_of_ne (Text.ne_of_isBlank blank (by decide)) text)
  trail text trail blank := by
    have visible : Text.isVisibleText command := by decide
    induction text using commands_induction with
    | nil =>
        refine ⟨trail, blank, ?_⟩
        rw [List.nil_append, dropCommands_nil, List.nil_append, dropCommands_eq_self_iff]
        have letters := Text.isVisibleText_iff.mp visible
        exact fun inside =>
          absurd (Text.eq_nil_of_infix_of_isBlankText letters blank inside) (by decide)
    | command text ih =>
        rw [List.append_assoc, dropCommands_command, dropCommands_command, List.dropWhile_append]
        split
        · rename_i empty
          refine ⟨[], rfl, ?_⟩
          rw [List.isEmpty_iff.mp empty,
            List.dropWhile_eq_nil_iff.mpr (Text.isBlankText_iff.mp blank)]
          simp
        · exact ih
    | letter c text absent ih =>
        obtain ⟨trail', blank', behind⟩ := ih
        refine ⟨trail', blank', ?_⟩
        have stays : ¬ command <+: c :: (text ++ trail) := by
          rw [← Text.after?_eq_none_iff] at absent ⊢
          rw [← List.cons_append, Text.after?_append_of_isBlankText visible blank, absent,
            Option.map_none]
        rw [List.cons_append, dropCommands_cons stays, dropCommands_cons absent, behind,
          List.cons_append]

end DisplayStyle

namespace Script

theorem keepsMargins_escapeBare : Text.KeepsMargins escapeBare where
  lead c text blank := escapeBare_cons_of_isBlank blank text
  trail text trail blank := by
    refine ⟨trail, blank, ?_⟩
    cases trail with
    | nil => simp
    | cons c trail =>
        simp only [Text.isBlankText, List.all_cons, Bool.and_eq_true] at blank
        rw [escapeBare, escapeFrom_append_cons false text trail
            (isScript_eq_false_of_isBlank blank.1) (startsOperand_eq_false_of_isBlank blank.1),
          beq_eq_false_iff_ne.mpr (Text.ne_of_isBlank blank.1 (by decide)), ← escapeBare,
          ← escapeBare, escapeBare_of_isBlankText blank.2]

end Script

namespace Brace

theorem seesNoMargin_enclosed {opening : Text} (nonempty : opening ≠ [])
    (visible : Text.isVisibleText opening) (allowed : Char → Bool) :
    (enclosed opening allowed).SeesNoMargin where
  lead c text blank := by
    simp [enclosed, Text.after?_cons_of_isBlank visible nonempty blank]
  trail text trail blank := by
    have closes : Text.isVisibleText doubleClosing := by decide
    simp only [enclosed, Text.after?_append_of_isBlankText visible blank]
    cases Text.after? opening text with
    | none => rfl
    | some inside =>
        simp only [Option.map_some, Option.bind_some]
        by_cases stops : inside.dropWhile allowed = []
        · have margin : (inside ++ trail).dropWhile allowed ⊆ trail := by
            rw [List.dropWhile_append, if_pos (by simp [stops])]
            exact (List.dropWhile_suffix allowed).subset
          have unclosed :
              Text.after? doubleClosing ((inside ++ trail).dropWhile allowed) = none := by
            rw [Text.after?_eq_none_iff]
            intro front
            have member := margin (front.subset (by decide : '\x7d' ∈ doubleClosing))
            exact Text.not_mem_of_isBlankText blank (by decide) member
          have unclosed' : Text.after? doubleClosing [] = none := rfl
          simp [stops, unclosed, unclosed']
        · rw [Text.takeWhile_append_of_stops stops, Text.dropWhile_append_of_stops stops,
            Text.after?_append_of_isBlankText closes blank]
          split
          · rfl
          · rw [Option.map_map, Option.map_map]
            rfl

theorem keepsMargins_dropDoubled : Text.KeepsMargins dropDoubled :=
  Text.KeepsMargins.comp
    ((seesNoMargin_enclosed (by decide) (by decide) _).keepsMargins_substitute _)
    ((seesNoMargin_enclosed (by decide) (by decide) _).keepsMargins_substitute _)

end Brace

namespace Layout

theorem ignoresMargins_normalize : Text.IgnoresMargins normalize := by
  intro text
  obtain ⟨lead, trail, blankLead, blankTrail, whole⟩ := Text.strip_parts text
  by_cases empty : Text.strip text = []
  · have blank : Text.isBlankText text := by
      rw [whole, empty]
      exact Text.isBlankText_append blankLead blankTrail
    have normal := Text.isBlankText_of_subset (thins_normalize text).sublist.subset blank
    have none := List.sublist_nil.mp (thins_normalize []).sublist
    rw [Text.strip_of_isBlankText normal, empty, none]
    rfl
  · have flush := Text.IsFlush.of_strip empty (Text.strip_strip text)
    obtain ⟨lead', trail', blankLead', blankTrail', parts⟩ :=
      exists_normalize_append flush blankLead blankTrail
    have normal := congrArg normalize whole
    rw [parts] at normal
    rw [normal, Text.strip_append_left blankLead', Text.strip_append_right _ blankTrail']

end Layout

namespace Stage

theorem ignoresMargins_apply (stage : Stage) : Text.IgnoresMargins stage.apply := by
  cases stage with
  | inlineDelimiters => exact Delimiter.keepsMargins_dollarInline.ignoresMargins
  | blockDelimiters => exact Delimiter.keepsMargins_dollarBlocks.ignoresMargins
  | alignedEnvironments => exact Environment.keepsMargins_blockAligned.ignoresMargins
  | matrixEnvironments => exact Matrix.keepsMargins_blockMatrices.ignoresMargins
  | displayStyle => exact DisplayStyle.keepsMargins_dropCommands.ignoresMargins
  | escapeScripts => exact Script.keepsMargins_escapeBare.ignoresMargins
  | whitespace => exact Layout.ignoresMargins_normalize
  | redundantBraces => exact Brace.keepsMargins_dropDoubled.ignoresMargins
  | trim => exact fun text => by rw [apply, Text.strip_strip (Text.strip text)]

theorem ignoresMargins_applyAll (stages : List Stage) : Text.IgnoresMargins (applyAll stages) := by
  induction stages with
  | nil => exact fun text => (Text.strip_strip text).symm
  | cons stage stages ih => exact ih.comp stage.ignoresMargins_apply

end Stage

/-- Blank characters before a text and behind it do nothing to its conversion. -/
theorem convert_append_margins {lead trail : Text} (blankLead : Text.isBlankText lead)
    (blankTrail : Text.isBlankText trail) (text : Text) :
    convert (lead ++ text ++ trail) = convert text := by
  have same : Text.strip (lead ++ text ++ trail) = Text.strip text := by
    rw [Text.strip_append_right _ blankTrail, Text.strip_append_left blankLead]
  rw [convert_eq_applyAll, convert_eq_applyAll]
  exact (Stage.ignoresMargins_applyAll
    [.inlineDelimiters, .blockDelimiters, .alignedEnvironments, .matrixEnvironments, .displayStyle,
      .escapeScripts, .whitespace, .redundantBraces]).strip_eq same

/-- Margins around a block that does not end and of which a display-style command is the end. -/
theorem convert_append_margins_of_open_block :
    convert "\n \t\\[\nx_ \\displaystyle\n\n" = Text.ofString "$$x\\_" := by
  have each : convert "\\[\nx_ \\displaystyle" = Text.ofString "$$x\\_" := by decide +kernel
  exact (@convert_append_margins "\n \t" "\n\n" (by decide) (by decide)
    "\\[\nx_ \\displaystyle").trans each

end DollarMath
