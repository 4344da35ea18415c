import DollarMath.Markup.Brace
import DollarMath.Markup.Delimiter
import DollarMath.Markup.DisplayStyle
import DollarMath.Markup.Environment
import DollarMath.Markup.Layout
import DollarMath.Markup.Matrix
import DollarMath.Markup.Script

/-!
# Stages of the conversion

A conversion takes nine steps over the whole text in a fixed order.  Each stage reads what the
stage before it wrote.
-/

namespace DollarMath

/-- A step of the conversion. -/
inductive Stage where
  /-- Sentence delimiters become single dollars. -/
  | inlineDelimiters
  /-- Display delimiters become double dollars. -/
  | blockDelimiters
  /-- Aligned environments move into blocks. -/
  | alignedEnvironments
  /-- Matrix environments move into blocks. -/
  | matrixEnvironments
  /-- Display-style commands go. -/
  | displayStyle
  /-- Bare script characters are escaped. -/
  | escapeScripts
  /-- Blank characters are normalised. -/
  | whitespace
  /-- Doubled braces become single. -/
  | redundantBraces
  /-- Blank characters at the two ends go. -/
  | trim
  deriving DecidableEq, Repr

namespace Stage

/-- The stages in the order in which they run. -/
def all : List Stage :=
  [.inlineDelimiters, .blockDelimiters, .alignedEnvironments, .matrixEnvironments, .displayStyle,
    .escapeScripts, .whitespace, .redundantBraces, .trim]

/-- The name under which a stage is reported. -/
def name : Stage → Text
  | .inlineDelimiters => "inline_delimiters"
  | .blockDelimiters => "block_delimiters"
  | .alignedEnvironments => "aligned_environments"
  | .matrixEnvironments => "matrix_environments"
  | .displayStyle => "displaystyle"
  | .escapeScripts => "escape_scripts"
  | .whitespace => "whitespace"
  | .redundantBraces => "redundant_braces"
  | .trim => "trim"

/-- The stage with this name. -/
def ofName? (name : Text) : Option Stage :=
  all.find? fun stage => stage.name == name

/-- What a stage makes of a text. -/
def apply : Stage → Text → Text
  | .inlineDelimiters => Delimiter.dollarInline
  | .blockDelimiters => Delimiter.dollarBlocks
  | .alignedEnvironments => Environment.blockAligned
  | .matrixEnvironments => Matrix.blockMatrices
  | .displayStyle => DisplayStyle.dropCommands
  | .escapeScripts => Script.escapeBare
  | .whitespace => Layout.normalize
  | .redundantBraces => Brace.dropDoubled
  | .trim => Text.strip

theorem mem_all (stage : Stage) : stage ∈ all := by
  cases stage <;> decide

/-- The texts after each of some stages, each of which reads what the one before it wrote. -/
def outputs : List Stage → Text → List Text
  | [], _ => []
  | stage :: stages, text => stage.apply text :: outputs stages (stage.apply text)

/-- The text after all of some stages. -/
def applyAll (stages : List Stage) (text : Text) : Text :=
  stages.foldl (fun text stage => stage.apply text) text

end Stage
end DollarMath
