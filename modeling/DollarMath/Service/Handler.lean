import DollarMath.Gallery
import DollarMath.Service.InputLimit
import DollarMath.Service.Json

/-!
# Handlers

The service has a handler for each thing that it can be asked for: whether it runs, the gallery and
the conversion of a text.  A text is converted up to a limit.
-/

namespace DollarMath
namespace Service

/-- A failure that a handler gives in place of a value. -/
structure Failure where
  /-- The status code of the answer. -/
  status : Nat
  /-- What went wrong in words. -/
  detail : Text
  deriving DecidableEq, Repr

/-- The failure of a text that is longer than the limit. -/
def tooLong (length : Nat) (limit : Int) : Failure where
  status := 413
  detail :=
    "Input is " ++ Text.decimal length ++ " characters; the limit is " ++
      Text.signedDecimal limit ++ "."

/-- The text, if its length is within the limit. -/
def withinLimit (limit : Int) (text : Text) : Except Failure Text :=
  if limit < text.length then .error (tooLong text.length limit) else .ok text

/-- The value with the conversion of a text. -/
def conversionBody (text : Text) : Json :=
  let report := Report.ofText text
  .object [("text", .string report.content), ("changed", .bool report.changed),
    ("stages", Json.ofTexts (report.stages.map Stage.name)),
    ("dialect", .string report.dialect.name), ("inputChars", Json.ofNat text.length),
    ("outputChars", Json.ofNat report.content.length)]

/-- An example of the gallery with its converted form. -/
def exampleBody (entry : Example) : Json :=
  .object [("title", .string entry.title), ("description", .string entry.description),
    ("source", .string entry.source), ("converted", .string entry.converted)]

/-- What a service does for its requests. -/
structure Handlers where
  /-- Says that the service runs. -/
  health : Json
  /-- Gives the gallery. -/
  examples : Json
  /-- Converts the text that a request sends. -/
  convert : Text → Except Failure Json

/-- The handlers under an input limit. -/
def handlers (limit : Int) : Handlers where
  health := .object [("status", .string "ok")]
  examples := .array (Example.gallery.map exampleBody)
  convert text := (withinLimit limit text).map conversionBody

end Service
end DollarMath
