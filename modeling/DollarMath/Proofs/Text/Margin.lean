import DollarMath.Proofs.Text.Blank
import DollarMath.Proofs.Text.Substitution

/-!
# Margins

The margins of a text are the blank characters at its ends.  An edit keeps them when it passes over
the blank characters before a text and sees no further than what it left of those behind it.  Then
it does the same to a text with other margins, but for the margins.
-/

namespace DollarMath
namespace Text

theorem strip_append_left {lead : Text} (blank : isBlankText lead) (text : Text) :
    strip (lead ++ text) = strip text := by
  rw [strip, List.dropWhile_append_of_pos (isBlankText_iff.mp blank), strip]

theorem strip_append_right (text : Text) {trail : Text} (blank : isBlankText trail) :
    strip (text ++ trail) = strip text := by
  have all : ∀ c ∈ trail.reverse, isBlank c := fun c member =>
    isBlankText_iff.mp blank c (List.mem_reverse.mp member)
  rw [strip, List.dropWhile_append]
  split
  · rename_i empty
    rw [strip, List.isEmpty_iff.mp empty, List.dropWhile_eq_nil_iff.mpr (isBlankText_iff.mp blank)]
  · rw [stripEnd, List.reverse_append, List.dropWhile_append_of_pos all]
    rfl

/-- An edit that does the same to texts with other margins, but for the margins of the result. -/
def IgnoresMargins (edit : Text → Text) : Prop :=
  ∀ text, strip (edit text) = strip (edit (strip text))

/-- An edit that passes over the blank characters before a text, and of those behind it leaves
some. -/
structure KeepsMargins (edit : Text → Text) : Prop where
  /-- A blank character in front stays there. -/
  lead : ∀ c text, isBlank c → edit (c :: text) = c :: edit text
  /-- Blank characters at the end leave blank characters there. -/
  trail : ∀ text trail, isBlankText trail →
    ∃ trail', isBlankText trail' ∧ edit (text ++ trail) = edit text ++ trail'

namespace IgnoresMargins

variable {first second : Text → Text}

theorem strip_eq (ignores : IgnoresMargins first) {text text' : Text}
    (same : strip text = strip text') : strip (first text) = strip (first text') := by
  rw [ignores text, same, ← ignores text']

theorem comp (ignoresSecond : IgnoresMargins second) (ignoresFirst : IgnoresMargins first) :
    IgnoresMargins (second ∘ first) :=
  fun text => ignoresSecond.strip_eq (ignoresFirst text)

end IgnoresMargins

namespace KeepsMargins

variable {edit first second : Text → Text}

theorem comp (keepsSecond : KeepsMargins second) (keepsFirst : KeepsMargins first) :
    KeepsMargins (second ∘ first) where
  lead c text blank := by
    rw [Function.comp_apply, keepsFirst.lead c text blank, keepsSecond.lead c _ blank,
      Function.comp_apply]
  trail text trail blank := by
    obtain ⟨middle, blankMiddle, here⟩ := keepsFirst.trail text trail blank
    obtain ⟨trail', blank', behind⟩ := keepsSecond.trail (first text) middle blankMiddle
    exact ⟨trail', blank', by rw [Function.comp_apply, here, behind, Function.comp_apply]⟩

theorem edit_append (keeps : KeepsMargins edit) {lead : Text} (blank : isBlankText lead)
    (text : Text) : edit (lead ++ text) = lead ++ edit text := by
  induction lead with
  | nil => rfl
  | cons c lead ih =>
      simp only [isBlankText, List.all_cons, Bool.and_eq_true] at blank
      rw [List.cons_append, keeps.lead c _ blank.1, ih blank.2, List.cons_append]

/-- What is left of the margins is stripped from both results. -/
theorem ignoresMargins (keeps : KeepsMargins edit) : IgnoresMargins edit := by
  intro text
  obtain ⟨lead, trail, blankLead, blankTrail, whole⟩ := strip_parts text
  obtain ⟨trail', blank', behind⟩ := keeps.trail (strip text) trail blankTrail
  have edited := congrArg edit whole
  rw [keeps.edit_append blankLead, behind] at edited
  rw [edited, strip_append_left blankLead, strip_append_right _ blank']

end KeepsMargins

section Words

variable {word trail : Text} (visible : isVisibleText word) (blank : isBlankText trail)

include visible blank

theorem after?_append_of_isBlankText (text : Text) :
    after? word (text ++ trail) = (after? word text).map (· ++ trail) := by
  induction word generalizing text with
  | nil => rfl
  | cons letter word ih =>
      simp only [isVisibleText, List.all_cons, Bool.and_eq_true, Bool.not_eq_true'] at visible
      cases text with
      | nil =>
          rw [List.nil_append, after?_eq_none_iff.mpr]
          · rfl
          · intro front
            have member := front.subset List.mem_cons_self
            exact not_mem_of_isBlankText blank visible.1 member
      | cons c text =>
          rw [List.cons_append, after?, after?]
          split
          · exact ih visible.2 text
          · rfl

omit blank in
theorem after?_cons_of_isBlank (nonempty : word ≠ []) {c : Char} (blank : isBlank c)
    (text : Text) : after? word (c :: text) = none := by
  have foreign : c ∉ word := fun member => by simp [isVisibleText_iff.mp visible c member] at blank
  rw [after?_eq_none_iff]
  exact fun front => nonempty (eq_nil_of_prefix_cons foreign front)

/-- The first occurrence of a word stays the first. -/
theorem cut?_append_of_isBlankText (nonempty : word ≠ []) (text : Text) :
    cut? word (text ++ trail) =
      (cut? word text).map fun (before, behind) => (before, behind ++ trail) := by
  induction text with
  | nil =>
      have none : cut? word trail = none := by
        rw [← Option.not_isSome_iff_eq_none, isSome_cut?_iff]
        exact fun inside =>
          nonempty (eq_nil_of_infix_of_isBlankText (isVisibleText_iff.mp visible) blank inside)
      have empty : cut? word [] = Option.none := by
        rw [← Option.not_isSome_iff_eq_none, isSome_cut?_iff, List.infix_nil]
        exact nonempty
      rw [List.nil_append, none, empty]
      rfl
  | cons c text ih =>
      rw [List.cons_append, cut?, cut?, ← List.cons_append,
        after?_append_of_isBlankText visible blank]
      cases after? word (c :: text) with
      | some rest => rfl
      | none =>
          simp only [Option.map_none, ih, Option.map_map]
          rfl

end Words

end Text

namespace Pattern

variable {α : Type} {pattern : Pattern α}

/-- Occurrences start at visible characters, and are told without a look at the blank characters
at the end of the text. -/
structure SeesNoMargin (pattern : Pattern α) : Prop where
  /-- No occurrence starts at a blank character. -/
  lead : ∀ c text, Text.isBlank c → pattern.read? (c :: text) = none
  /-- Blank characters at the end stay behind the occurrence. -/
  trail : ∀ text trail, Text.isBlankText trail →
    pattern.read? (text ++ trail) =
      (pattern.read? text).map fun (occurrence, rest) => (occurrence, rest ++ trail)

namespace SeesNoMargin

theorem pieces_of_isBlankText (blind : pattern.SeesNoMargin) {trail : Text}
    (blank : Text.isBlankText trail) : pattern.pieces trail = trail.map .plain := by
  induction trail with
  | nil => simp
  | cons c trail ih =>
      simp only [Text.isBlankText, List.all_cons, Bool.and_eq_true] at blank
      rw [pattern.pieces_cons (blind.lead c trail blank.1), ih blank.2, List.map_cons]

theorem pieces_append (blind : pattern.SeesNoMargin) (text : Text) {trail : Text}
    (blank : Text.isBlankText trail) :
    pattern.pieces (text ++ trail) = pattern.pieces text ++ trail.map .plain := by
  fun_induction pattern.pieces text with
  | case1 => exact blind.pieces_of_isBlankText blank
  | case2 c text absent ih =>
      have absent' : pattern.read? (c :: (text ++ trail)) = none := by
        rw [← List.cons_append, blind.trail _ _ blank, absent, Option.map_none]
      rw [List.cons_append, pattern.pieces_cons absent', ih, List.cons_append]
  | case3 c text occurrence rest read ih =>
      have read' : pattern.read? (c :: text ++ trail) = some (occurrence, rest ++ trail) := by
        rw [blind.trail _ _ blank, read, Option.map_some]
      rw [pattern.pieces_of_read? read', ih, List.cons_append]

theorem keepsMargins_substitute (blind : pattern.SeesNoMargin) (write : α → Text) :
    Text.KeepsMargins (pattern.substitute write) where
  lead c text blank := by
    rw [substitute, pattern.pieces_cons (blind.lead c text blank)]
    rfl
  trail text trail blank := by
    refine ⟨trail, blank, ?_⟩
    have same : (trail.map Piece.plain).flatMap (Piece.render write) = trail := by
      simp [List.flatMap_map, Piece.render]
    rw [substitute, blind.pieces_append text blank, List.flatMap_append, same, substitute]

end SeesNoMargin

theorem seesNoMargin_word {letters : Text} (nonempty : letters ≠ [])
    (visible : Text.isVisibleText letters) : (word letters nonempty).SeesNoMargin where
  lead c text blank := by
    simp [word, Text.after?_cons_of_isBlank visible nonempty blank]
  trail text trail blank := by
    simp only [word, Text.after?_append_of_isBlankText visible blank, Option.map_map]
    rfl

section Shift

variable (pattern)

theorem renderFrom_succ (write : Nat → α → Text) (offset : Nat) (pieces : List (Piece α)) :
    pattern.renderFrom write (offset + 1) pieces =
      pattern.renderFrom (fun offset => write (offset + 1)) offset pieces := by
  induction pieces generalizing offset with
  | nil => rfl
  | cons piece pieces ih =>
      cases piece with
      | plain c => rw [renderFrom, renderFrom, ih]
      | found occurrence =>
          rw [renderFrom, renderFrom, Nat.add_right_comm, ih]

theorem renderFrom_append_map_plain (write : Nat → α → Text) (offset : Nat)
    (pieces : List (Piece α)) (text : Text) :
    pattern.renderFrom write offset (pieces ++ text.map .plain) =
      pattern.renderFrom write offset pieces ++ text := by
  induction pieces generalizing offset with
  | nil =>
      have whole := pattern.renderFrom_map_plain_append write offset text []
      simpa [renderFrom] using whole
  | cons piece pieces ih =>
      cases piece with
      | plain c => rw [List.cons_append, renderFrom, ih, renderFrom, List.cons_append]
      | found occurrence =>
          rw [List.cons_append, renderFrom, ih, renderFrom, List.append_assoc]

end Shift

end Pattern
end DollarMath
