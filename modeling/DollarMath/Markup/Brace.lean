import DollarMath.Text.Pattern

/-!
# Redundant braces

Two pairs of braces around one content say no more than one pair.  The inner pair goes, behind a
`\text` command first and then everywhere else.
-/

namespace DollarMath
namespace Brace

/-- What closes a doubled pair of braces. -/
def doubleClosing : Text :=
  "\x7d\x7d"

/-- The occurrences of `opening`, a content of at least one character that all satisfy `allowed`,
and two closing braces; an occurrence is given by its content. -/
def enclosed (opening : Text) (allowed : Char → Bool) : Pattern Text where
  read? text :=
    (Text.after? opening text).bind fun inside =>
      let content := inside.takeWhile allowed
      if content = [] then none
      else (Text.after? doubleClosing (inside.dropWhile allowed)).map fun rest => (content, rest)
  source content := opening ++ content ++ doubleClosing
  source_ne_nil _ := by simp [doubleClosing, Text.ofString]
  eq_of_read? := by
    intro text content rest read
    simp only [Option.bind_eq_some_iff] at read
    obtain ⟨inside, opened, read⟩ := read
    split at read
    · simp at read
    · simp only [Option.map_eq_some_iff, Prod.mk.injEq] at read
      obtain ⟨_, closed, rfl, rfl⟩ := read
      have parts := List.takeWhile_append_dropWhile (p := allowed) (l := inside)
      rw [Text.after?_eq_some_iff.mp closed] at parts
      rw [Text.after?_eq_some_iff.mp opened]
      simpa using parts.symm

/-- The occurrences of a `\text` command with doubled braces. -/
def doubledText : Pattern Text :=
  enclosed "\\text\x7b\x7b" (· != '\x7d')

/-- The occurrences of doubled braces around a content without braces. -/
def doubled : Pattern Text :=
  enclosed "\x7b\x7b" fun c => c != '\x7b' && c != '\x7d'

/-- Drops one of two pairs of braces around the same content. -/
def dropDoubled (text : Text) : Text :=
  let simpler := doubledText.substitute (fun content => "\\text\x7b" ++ content ++ "\x7d") text
  doubled.substitute (fun content => "\x7b" ++ content ++ "\x7d") simpler

end Brace
end DollarMath
