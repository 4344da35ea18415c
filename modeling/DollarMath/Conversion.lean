import DollarMath.Dialect
import DollarMath.Stage

/-!
# Conversion

Converting a text runs all stages on it.  A report says in addition which dialect the text was
written in and which stages changed it.  A blank text converts to the empty text without running
a stage.
-/

namespace DollarMath

/-- A run of a stage that changed the text. -/
structure Firing where
  /-- The stage. -/
  stage : Stage
  /-- The length of the text before the stage. -/
  lengthBefore : Nat
  /-- The length of the text behind the stage. -/
  lengthAfter : Nat
  deriving DecidableEq, Repr

namespace Firing

/-- How a firing is logged. -/
def message (firing : Firing) : Text :=
  "Stage '" ++ firing.stage.name ++ "' rewrote text (" ++ Text.decimal firing.lengthBefore ++
    " -> " ++ Text.decimal firing.lengthAfter ++ " chars)"

/-- Runs some stages one after another: the text behind the last of them, and the firings. -/
def run : List Stage → Text → Text × List Firing
  | [], text => (text, [])
  | stage :: stages, text =>
      let output := stage.apply text
      let (content, firings) := run stages output
      (content, if output = text then firings
        else ⟨stage, text.length, output.length⟩ :: firings)

end Firing

/-- What a conversion did. -/
structure Report where
  /-- The converted text. -/
  content : Text
  /-- Whether it differs from the text that was converted. -/
  changed : Bool
  /-- The stages that changed the text they read. -/
  firings : List Firing
  /-- The dialect of the text that was converted. -/
  dialect : Dialect
  deriving DecidableEq, Repr

/-- The stages that changed the text, in order. -/
def Report.stages (report : Report) : List Stage :=
  report.firings.map Firing.stage

/-- Converts a text. -/
def convert (text : Text) : Text :=
  if Text.isBlankText text then [] else Stage.applyAll Stage.all text

/-- Converts a text and reports what the conversion did. -/
def Report.ofText (text : Text) : Report :=
  if Text.isBlankText text then ⟨[], !text.isEmpty, [], .unknown⟩
  else
    let (content, firings) := Firing.run Stage.all text
    ⟨content, decide (content ≠ text), firings, Dialect.detect text⟩

end DollarMath
