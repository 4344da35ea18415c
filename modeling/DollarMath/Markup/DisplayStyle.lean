import DollarMath.Text.Blank
import DollarMath.Text.Pattern

/-!
# Display-style commands

A block is set in display style anyway, so the command that asks for it is dropped, together with
the blank characters that separate it from what follows.
-/

namespace DollarMath
namespace DisplayStyle

/-- The command that asks for display style. -/
def command : Text :=
  "\\displaystyle"

/-- The occurrences of the command, each with the blank characters behind it. -/
def occurrences : Pattern Text where
  read? text :=
    (Text.after? command text).map fun rest =>
      (rest.takeWhile Text.isBlank, rest.dropWhile Text.isBlank)
  source blanks := command ++ blanks
  source_ne_nil _ := by simp [command, Text.ofString]
  eq_of_read? read := by
    simp only [Option.map_eq_some_iff, Prod.mk.injEq] at read
    obtain ⟨_, found, rfl, rfl⟩ := read
    simpa [List.takeWhile_append_dropWhile] using Text.after?_eq_some_iff.mp found

/-- Drops every display-style command. -/
def dropCommands : Text → Text :=
  occurrences.substitute fun _ => []

end DisplayStyle
end DollarMath
