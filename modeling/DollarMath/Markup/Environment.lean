import DollarMath.Text.Pattern
import DollarMath.Markup.Delimiter

/-!
# Environments

An environment is a named span from `\begin` to the first `\end` of the same name; what stands
between is its body, whatever it holds.  The aligned environments of LaTeX, which start a
displayed formula of their own, become `aligned` environments inside a block.
-/

namespace DollarMath

/-- A span between a `\begin` and the next `\end` of one name. -/
structure Environment where
  /-- The name in braces behind `\begin` and `\end`. -/
  name : Text
  /-- The text between the two. -/
  body : Text
  deriving DecidableEq, Repr

namespace Environment

/-- The word that opens an environment of this name. -/
def opening (name : Text) : Text :=
  "\\begin\x7b" ++ name ++ "\x7d"

/-- The word that closes an environment of this name. -/
def closing (name : Text) : Text :=
  "\\end\x7b" ++ name ++ "\x7d"

/-- An environment as it is written. -/
def source (environment : Environment) : Text :=
  opening environment.name ++ environment.body ++ closing environment.name

theorem source_ne_nil (environment : Environment) : environment.source ≠ [] := by
  simp [source, opening, Text.ofString]

/-- The environment with this name that the text starts with, and the text behind it. -/
def readNamed? (name text : Text) : Option (Environment × Text) :=
  (Text.after? (opening name) text).bind fun inside =>
    (Text.cut? (closing name) inside).map fun (body, rest) => (⟨name, body⟩, rest)

theorem eq_of_readNamed? {name text rest : Text} {environment : Environment}
    (read : readNamed? name text = some (environment, rest)) :
    text = environment.source ++ rest := by
  simp only [readNamed?, Option.bind_eq_some_iff, Option.map_eq_some_iff, Prod.mk.injEq,
    Prod.exists] at read
  obtain ⟨inside, opened, body, _, cut, rfl, rfl⟩ := read
  rw [Text.after?_eq_some_iff.mp opened, Text.eq_of_cut? cut]
  simp [source]

/-- The environment with one of these names that the text starts with, and the text behind it. -/
def read? (names : List Text) (text : Text) : Option (Environment × Text) :=
  names.findSome? fun name => readNamed? name text

theorem eq_of_read? {names : List Text} {text rest : Text} {environment : Environment}
    (read : read? names text = some (environment, rest)) : text = environment.source ++ rest := by
  obtain ⟨_, _, named⟩ := List.exists_of_findSome?_eq_some read
  exact eq_of_readNamed? named

/-- The environments that LaTeX sets as aligned lines of a displayed formula. -/
def alignedNames : List Text :=
  ["align", "align*", "eqnarray", "eqnarray*"]

/-- The occurrences of aligned environments. -/
def aligned : Pattern Environment where
  read? := read? alignedNames
  source := source
  source_ne_nil := source_ne_nil
  eq_of_read? := eq_of_read?

/-- The name that an aligned environment has inside a block. -/
def alignedBlockName : Text :=
  "aligned"

/-- Turns each aligned environment into an `aligned` environment between block markers. -/
def blockAligned : Text → Text :=
  aligned.substitute fun environment =>
    Delimiter.blockMarker ++ source ⟨alignedBlockName, environment.body⟩ ++ Delimiter.blockMarker

end Environment
end DollarMath
