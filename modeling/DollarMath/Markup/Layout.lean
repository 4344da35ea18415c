import DollarMath.Markup.Marker
import DollarMath.Text.Blank

/-!
# Layout

The layout of a text is its blank characters.  Normalising it takes three steps: spaces and tabs
at line ends go, a run of blank characters keeps at most one empty line, and a block loses the
line breaks directly inside its markers.  The visible characters are left alone.
-/

namespace DollarMath
namespace Layout

/-- Whether a line ends where this text starts. -/
def atLineEnd : Text → Bool
  | [] => true
  | c :: _ => c == '\n'

/-- Drops the spaces and tabs that stand at the ends of lines. -/
def trimLineEnds : Text → Text
  | [] => []
  | c :: text =>
      let trimmed := trimLineEnds text
      if Text.isSpaceOrTab c && atLineEnd trimmed then trimmed else c :: trimmed

/-- A text seen as its visible characters and the runs of blank characters around them. -/
structure Spacing where
  /-- The blank characters before the first visible one. -/
  margin : Text
  /-- Each visible character with the blank characters behind it. -/
  cells : List (Char × Text)
  deriving DecidableEq, Repr

namespace Spacing

/-- The spacing of a text. -/
def ofText : Text → Spacing
  | [] => ⟨[], []⟩
  | c :: text =>
      let ⟨margin, cells⟩ := ofText text
      if Text.isBlank c then ⟨c :: margin, cells⟩ else ⟨[], (c, margin) :: cells⟩

/-- The text with this spacing. -/
def toText (spacing : Spacing) : Text :=
  spacing.margin ++ spacing.cells.flatMap fun (c, run) => c :: run

/-- The spacing with every run of blank characters edited. -/
def mapRuns (edit : Text → Text) (spacing : Spacing) : Spacing :=
  ⟨edit spacing.margin, spacing.cells.map fun (c, run) => (c, edit run)⟩

end Spacing

/-- What stands before the first line break. -/
def beforeBreaks (run : Text) : Text :=
  run.takeWhile (· != '\n')

/-- What stands behind the last line break. -/
def behindBreaks (run : Text) : Text :=
  (beforeBreaks run.reverse).reverse

/-- A run of blank characters, with two line breaks for all that lies from its first break to its
last when it has more than two. -/
def closeRun (run : Text) : Text :=
  if 2 < run.count '\n' then beforeBreaks run ++ "\n\n" ++ behindBreaks run else run

/-- Closes up every run of blank characters. -/
def closeRuns (text : Text) : Text :=
  ((Spacing.ofText text).mapRuns closeRun).toText

/-- The text without the line breaks it starts with and the blank characters before the last of
them. -/
def dropLeadingBreaks (text : Text) : Text :=
  behindBreaks (text.takeWhile Text.isBlank) ++ text.dropWhile Text.isBlank

/-- The text without the line breaks it ends with and the blank characters behind the first of
them. -/
def dropTrailingBreaks (text : Text) : Text :=
  (dropLeadingBreaks text.reverse).reverse

/-- Pulls the content of each block up to its markers, in chunks of which the first stands outside
every block.  The last chunk has no marker behind it. -/
def tightenBlocks : List Text → List Text
  | [] => []
  | [outside] => [outside]
  | [outside, unclosed] => [outside, dropLeadingBreaks unclosed]
  | outside :: inside :: chunks =>
      outside :: dropTrailingBreaks (dropLeadingBreaks inside) :: tightenBlocks chunks

/-- Normalises the blank characters of a text. -/
def normalize (text : Text) : Text :=
  Marker.join (tightenBlocks (Marker.chunks (closeRuns (trimLineEnds text))))

end Layout
end DollarMath
