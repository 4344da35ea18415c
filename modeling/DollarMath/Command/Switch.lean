import DollarMath.Text.Basic

/-!
# Switches of the command line

A switch is a word that starts with a dash and tells the program how to run.  Each has a long
spelling and some have a short one.  The output switch takes a value; the others are flags.
-/

namespace DollarMath
namespace Command

/-- A switch that takes no value. -/
inductive Flag where
  /-- Show how the program is called. -/
  | help
  /-- Write each converted text back to its source. -/
  | inPlace
  /-- Report on each source. -/
  | report
  /-- Show the gallery. -/
  | examples
  /-- Log every stage that changed a text. -/
  | verbose
  deriving DecidableEq, Repr

/-- A switch. -/
inductive Switch where
  /-- A switch that takes no value. -/
  | flag (flag : Flag)
  /-- Write the converted text to the file that the value names. -/
  | output
  deriving DecidableEq, Repr

namespace Switch

/-- Every switch. -/
def all : List Switch :=
  [.flag .help, .output, .flag .inPlace, .flag .report, .flag .examples, .flag .verbose]

/-- The spellings of a switch. -/
def spellings : Switch → List Text
  | .flag .help => ["-h", "--help"]
  | .output => ["-o", "--output"]
  | .flag .inPlace => ["--in-place"]
  | .flag .report => ["--report"]
  | .flag .examples => ["--examples"]
  | .flag .verbose => ["-v", "--verbose"]

/-- All spellings, each with its switch. -/
def table : List (Text × Switch) :=
  all.flatMap fun switch => switch.spellings.map fun spelling => (spelling, switch)

/-- The switch with this spelling. -/
def ofSpelling? (spelling : Text) : Option Switch :=
  table.lookup spelling

/-- The switch that is spelled with one dash and this letter. -/
def ofLetter? (letter : Char) : Option Switch :=
  ofSpelling? ['-', letter]

/-- All spellings of a switch in one text. -/
def title (switch : Switch) : Text :=
  (Text.ofString "/").intercalate switch.spellings

end Switch
end Command
end DollarMath
