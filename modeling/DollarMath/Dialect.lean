import DollarMath.Markup.DisplayStyle
import DollarMath.Markup.Environment
import DollarMath.Markup.Marker
import DollarMath.Text.Quoted

/-!
# Dialects

A text is told by its tokens to be written for a LaTeX reader, for a dollar reader, for both or
for neither.
-/

namespace DollarMath

/-- How the formulas of a text are written. -/
inductive Dialect where
  /-- With LaTeX delimiters and environments. -/
  | chatgpt
  /-- With dollars. -/
  | obsidian
  /-- In both ways. -/
  | mixed
  /-- With no token of either. -/
  | unknown
  deriving DecidableEq, Repr

namespace Dialect

/-- Every dialect. -/
def all : List Dialect :=
  [.chatgpt, .obsidian, .mixed, .unknown]

/-- The name of a dialect. -/
def name : Dialect → Text
  | .chatgpt => "chatgpt"
  | .obsidian => "obsidian"
  | .mixed => "mixed"
  | .unknown => "unknown"

/-- A name that belongs to no dialect. -/
structure UnknownName where
  /-- The name that was looked up. -/
  name : Text
  deriving DecidableEq, Repr

/-- What is said about a name that belongs to no dialect. -/
def UnknownName.message (unknownName : UnknownName) : Text :=
  Text.quoted unknownName.name ++ " is not a valid MathDialect"

/-- The dialect with this name. -/
def ofName (name : Text) : Except UnknownName Dialect :=
  match all.find? fun dialect => dialect.name == name with
  | some dialect => .ok dialect
  | none => .error ⟨name⟩

/-- The words that only a LaTeX reader takes for math. -/
def bracketWords : List Text :=
  "\\(" :: "\\)" :: "\\[" :: "\\]" :: DisplayStyle.command ::
    Environment.alignedNames.map Environment.opening

/-- Whether a text has a word that only a LaTeX reader takes for math. -/
def hasBrackets (text : Text) : Bool :=
  bracketWords.any fun word => Text.occursIn word text

/-- Whether a text has a dollar without a backslash before it, or an aligned block. -/
def hasDollars (text : Text) : Bool :=
  (Marker.Dollars.first? false text).isSome ||
    Text.occursIn (Environment.opening Environment.alignedBlockName) text

/-- The dialect with these tokens. -/
def ofTokens : (brackets dollars : Bool) → Dialect
  | true, true => .mixed
  | true, false => .chatgpt
  | false, true => .obsidian
  | false, false => .unknown

/-- The dialect that a text is written in. -/
def detect (text : Text) : Dialect :=
  ofTokens (hasBrackets text) (hasDollars text)

end Dialect
end DollarMath
