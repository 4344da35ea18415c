import DollarMath.Command.Usage

/-!
# Arguments

What is to be done, as the command line says it: which sources are converted, where the converted
text goes, and what is said about the conversion.
-/

namespace DollarMath
namespace Command

/-- Where a text to convert comes from. -/
inductive Source where
  /-- The standard input. -/
  | stdin
  /-- A file. -/
  | file (name : Text)
  deriving DecidableEq, Repr

/-- The source that a word names. -/
def Source.ofText (text : Text) : Source :=
  if text = Text.ofString "-" then .stdin else .file text

/-- How a source is called in the log. -/
def Source.label : Source → Text
  | .stdin => "<stdin>"
  | .file name => name

/-- What is to be done, as the words of a command line say it. -/
structure Arguments where
  /-- The sources in order. -/
  sources : List Source
  /-- The file to write the converted text to. -/
  output : Option Text
  /-- Whether each source is replaced by its converted text. -/
  inPlace : Bool
  /-- Whether each source is reported on. -/
  report : Bool
  /-- Whether the gallery is shown. -/
  examples : Bool
  /-- Whether details are logged. -/
  verbose : Bool
  deriving DecidableEq, Repr

namespace Arguments

/-- What is to be done when no word says anything. -/
def initial : Arguments :=
  ⟨[], none, false, false, false, false⟩

/-- The sources to convert: the standard input where none is named. -/
def sourcesOrStdin (arguments : Arguments) : List Source :=
  if arguments.sources = [] then [.stdin] else arguments.sources

/-- The files that the arguments name. -/
def fileNames (arguments : Arguments) : List Text :=
  arguments.output.toList ++ arguments.sources.filterMap fun
    | .file name => some name
    | .stdin => none

/-- The arguments, if they say where the converted texts go. -/
def checked (arguments : Arguments) : Except UsageError Arguments :=
  if arguments.inPlace ∧ arguments.output.isSome then .error .inPlaceWithOutput
  else if arguments.inPlace ∧ .stdin ∈ arguments.sourcesOrStdin then .error .inPlaceWithStdin
  else .ok arguments

end Arguments
end Command
end DollarMath
