import DollarMath.Proofs.Text.Thinning
import Mathlib.Data.List.DropRight

/-!
# Stripped texts

Stripping cuts a text into blank characters, what is left, and blank characters again.  What is
left neither starts nor ends with a blank character, and a text of that kind is left alone.
-/

namespace DollarMath
namespace Text

theorem stripEnd_eq_rdropWhile (text : Text) : stripEnd text = text.rdropWhile isBlank := rfl

theorem isBlankText_takeWhile (text : Text) : isBlankText (text.takeWhile isBlank) := by
  rw [isBlankText_iff]
  intro c member
  exact List.mem_takeWhile_imp member

theorem isBlankText_append {left right : Text} (blank : isBlankText left)
    (blankRight : isBlankText right) : isBlankText (left ++ right) := by
  rw [isBlankText, List.all_append, Bool.and_eq_true]
  exact ⟨blank, blankRight⟩

/-- Whether a text has no blank character. -/
def isVisibleText (text : Text) : Bool :=
  text.all fun c => !isBlank c

theorem isVisibleText_iff {text : Text} : isVisibleText text ↔ ∀ c ∈ text, isBlank c = false := by
  simp [isVisibleText]

theorem eq_nil_of_infix_of_isBlankText {word text : Text} (visible : ∀ c ∈ word, isBlank c = false)
    (blank : isBlankText text) (inside : word <:+: text) : word = [] := by
  rw [List.eq_nil_iff_forall_not_mem]
  intro c member
  exact not_mem_of_isBlankText blank (visible c member) (inside.subset member)

theorem filter_of_isBlankText {kept : Char → Bool} (noBlank : ∀ c, isBlank c → kept c = false)
    {text : Text} (blank : isBlankText text) : text.filter kept = [] := by
  rw [List.filter_eq_nil_iff]
  intro c member
  simp [noBlank c (isBlankText_iff.mp blank c member)]

/-- Stripping takes blank characters from both ends. -/
theorem strip_parts (text : Text) : ∃ lead trail, isBlankText lead ∧ isBlankText trail ∧
    text = lead ++ (strip text ++ trail) := by
  refine ⟨text.takeWhile isBlank, (text.dropWhile isBlank).rtakeWhile isBlank,
    isBlankText_takeWhile text, ?_, ?_⟩
  · rw [List.rtakeWhile, isBlankText, List.all_reverse]
    exact isBlankText_takeWhile _
  · rw [strip, stripEnd_eq_rdropWhile, List.rdropWhile_append_rtakeWhile,
      List.takeWhile_append_dropWhile]

theorem strip_isInfix (text : Text) : strip text <:+: text := by
  obtain ⟨lead, trail, _, _, whole⟩ := strip_parts text
  exact ⟨lead, trail, by rw [List.append_assoc]; exact whole.symm⟩

theorem thins_strip (text : Text) : Thins isBlank text (strip text) := by
  obtain ⟨lead, trail, blankLead, blankTrail, whole⟩ := strip_parts text
  have inner := (Thins.refl isBlank (strip text)).append (.of_isBlankText blankTrail)
  have kept := (Thins.of_isBlankText blankLead).append inner
  rw [← whole] at kept
  simpa using kept

theorem filter_strip {kept : Char → Bool} (noBlank : ∀ c, isBlank c → kept c = false)
    (text : Text) : (strip text).filter kept = text.filter kept := by
  obtain ⟨lead, trail, blankLead, blankTrail, whole⟩ := strip_parts text
  conv_rhs => rw [whole]
  rw [List.filter_append, List.filter_append, filter_of_isBlankText noBlank blankLead,
    filter_of_isBlankText noBlank blankTrail, List.nil_append, List.append_nil]

theorem strip_eq_self {text : Text} (first : ∀ c, text.head? = some c → isBlank c = false)
    (last : ∀ c, text.getLast? = some c → isBlank c = false) : strip text = text := by
  have front : text.dropWhile isBlank = text := by
    cases text with
    | nil => rfl
    | cons c text =>
        have visible := first c rfl
        rw [List.dropWhile_cons_of_neg (by simp [visible])]
  rw [strip, front, stripEnd_eq_rdropWhile, List.rdropWhile_eq_self_iff]
  intro nonempty
  simp [last _ (List.getLast?_eq_getLast_of_ne_nil nonempty)]

theorem isBlank_getLast_strip {text : Text} {c : Char} (last : (strip text).getLast? = some c) :
    isBlank c = false := by
  have nonempty : strip text ≠ [] := by
    intro empty
    simp [empty] at last
  rw [List.getLast?_eq_some_getLast nonempty, Option.some.injEq] at last
  have visible := List.rdropWhile_last_not isBlank (text.dropWhile isBlank) nonempty
  rw [← last, ← Bool.not_eq_true]
  exact visible

theorem isBlank_head_strip {text : Text} {c : Char} (first : (strip text).head? = some c) :
    isBlank c = false := by
  obtain ⟨trail, whole⟩ := List.rdropWhile_prefix isBlank (l := text.dropWhile isBlank)
  have front : (text.dropWhile isBlank).head? = some c := by
    rw [← whole, List.head?_append, ← stripEnd_eq_rdropWhile, ← strip, first]
    rfl
  have visible := List.head?_dropWhile_not isBlank text
  rw [front] at visible
  exact visible

theorem strip_strip (text : Text) : strip (strip text) = strip text :=
  strip_eq_self (fun _ first => isBlank_head_strip first) fun _ last => isBlank_getLast_strip last

theorem strip_of_isBlankText {text : Text} (blank : isBlankText text) : strip text = [] := by
  have empty : text.dropWhile isBlank = [] := by
    rw [List.dropWhile_eq_nil_iff]
    exact isBlankText_iff.mp blank
  rw [strip, empty]
  rfl

end Text
end DollarMath
