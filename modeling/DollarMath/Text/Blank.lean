import DollarMath.Text.Basic

/-!
# Blank characters

A character is blank when Unicode counts it as white space.  Spaces and tabs alone end a line
invisibly; every blank character counts when a text is stripped or a run of blank lines is
closed up.
-/

namespace DollarMath
namespace Text

/-- The blank characters, as first and last code points. -/
def blankRanges : List (Nat × Nat) :=
  [(0x0009, 0x000D), (0x001C, 0x0020), (0x0085, 0x0085), (0x00A0, 0x00A0), (0x1680, 0x1680),
    (0x2000, 0x200A), (0x2028, 0x2029), (0x202F, 0x202F), (0x205F, 0x205F), (0x3000, 0x3000)]

/-- A character that Unicode counts as white space. -/
def isBlank (c : Char) : Bool :=
  blankRanges.any fun (first, last) => first ≤ c.toNat && c.toNat ≤ last

/-- A blank character that stays on its line and is written with the space or the tab key. -/
def isSpaceOrTab (c : Char) : Bool :=
  c == ' ' || c == '\t'

theorem isBlank_of_isSpaceOrTab {c : Char} (plain : isSpaceOrTab c) : isBlank c := by
  simp only [isSpaceOrTab, Bool.or_eq_true, beq_iff_eq] at plain
  rcases plain with rfl | rfl <;> decide

theorem ne_of_isBlank {c d : Char} (blank : isBlank c) (visible : isBlank d = false) : c ≠ d := by
  rintro rfl
  simp [blank] at visible

/-- Whether a text has no visible character. -/
def isBlankText (text : Text) : Bool :=
  text.all isBlank

theorem isBlankText_iff {text : Text} : isBlankText text ↔ ∀ c ∈ text, isBlank c :=
  List.all_eq_true

theorem not_mem_of_isBlankText {text : Text} {c : Char} (blank : isBlankText text)
    (visible : isBlank c = false) : c ∉ text :=
  fun member => ne_of_isBlank (isBlankText_iff.mp blank c member) visible rfl

theorem isBlankText_of_subset {before after : Text} (part : after ⊆ before)
    (blank : isBlankText before) : isBlankText after :=
  isBlankText_iff.mpr fun c member => isBlankText_iff.mp blank c (part member)

/-- The text without the blank characters at its end. -/
def stripEnd (text : Text) : Text :=
  (text.reverse.dropWhile isBlank).reverse

/-- The text without the blank characters at its two ends. -/
def strip (text : Text) : Text :=
  stripEnd (text.dropWhile isBlank)

end Text
end DollarMath
