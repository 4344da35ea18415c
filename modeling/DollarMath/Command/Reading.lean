import DollarMath.Command.Arguments
import DollarMath.Command.Cluster

/-!
# Reading a command line

The first row of operands names the sources; operands behind a later switch have no place.  No
flag of a word acts before the whole word has been understood, the request for help ends the
reading, and words that have no place are an error only where nothing else is.
-/

namespace DollarMath
namespace Command

/-- How far the row of operands that names the sources has been read. -/
inductive Row where
  /-- No operand has been read. -/
  | ahead
  /-- The last word belongs to the row. -/
  | inside
  /-- A switch stands behind the row. -/
  | behind
  deriving DecidableEq, Repr

/-- The row behind a switch. -/
def Row.stop : Row → Row
  | .ahead => .ahead
  | .inside => .behind
  | .behind => .behind

/-- What has been read of a command line. -/
structure Reading where
  /-- What the words say so far. -/
  arguments : Arguments
  /-- How far the row of sources has been read. -/
  row : Row
  /-- The words that have no place. -/
  leftovers : List Text
  deriving DecidableEq, Repr

/-- What ends the reading of a command line. -/
inductive Stop where
  /-- The request for help. -/
  | help
  /-- A word that cannot be read. -/
  | error (error : UsageError)
  deriving DecidableEq, Repr

namespace Reading

/-- A reading before the first word. -/
def start : Reading :=
  ⟨.initial, .ahead, []⟩

/-- The reading behind an operand, which is a source if its row is not over. -/
def operand (reading : Reading) (text : Text) : Reading :=
  if reading.row = .behind then { reading with leftovers := reading.leftovers ++ [text] }
  else
    let sources := reading.arguments.sources ++ [Source.ofText text]
    { reading with row := .inside, arguments := { reading.arguments with sources := sources } }

/-- The reading behind two dashes, which are dropped where the row of sources may start. -/
def separator (reading : Reading) : Reading :=
  if reading.row = .behind then
    { reading with leftovers := reading.leftovers ++ [dashes] }
  else { reading with row := .inside }

/-- The reading behind a word that is no switch although it looks like one. -/
def unknown (reading : Reading) (text : Text) : Reading :=
  { reading with row := reading.row.stop, leftovers := reading.leftovers ++ [text] }

/-- The arguments with a flag raised; the flag for help ends the reading. -/
def raise (arguments : Arguments) : Flag → Except Stop Arguments
  | .help => .error .help
  | .inPlace => .ok { arguments with inPlace := true }
  | .report => .ok { arguments with report := true }
  | .examples => .ok { arguments with examples := true }
  | .verbose => .ok { arguments with verbose := true }

/-- The file that a value of the output switch names, if it names one. -/
def outputOf? (habits : Habits) (value : Text) : Option Text :=
  if value = [] ∨ value = dashes ∧ habits.dropsDashes then none else some value

/-- The reading behind a word that raises flags. -/
def act (reading : Reading) (flags : List Flag) : Except Stop Reading :=
  (flags.foldlM raise reading.arguments).map fun arguments =>
    { reading with row := reading.row.stop, arguments }

/-- The reading behind the value of the output switch. -/
def give (habits : Habits) (value : Text) (reading : Reading) : Reading :=
  { reading with arguments := { reading.arguments with output := outputOf? habits value } }

/-- Reads the rest of a command line. -/
def readFrom (habits : Habits) (reading : Reading) : List Word → Except Stop Reading
  | [] => .ok reading
  | .operand text :: words => (reading.operand text).readFrom habits words
  | .separator :: words => reading.separator.readFrom habits words
  | .unknown text :: words => (reading.unknown text).readFrom habits words
  | .spelled spelled :: words =>
      match Cluster.ofSpelled habits spelled with
      | .error error => .error (.error error)
      | .ok ⟨flags, .complete⟩ =>
          (reading.act flags).bind fun reading => reading.readFrom habits words
      | .ok ⟨flags, .leftover text⟩ =>
          (reading.act flags).bind fun reading => (reading.unknown text).readFrom habits words
      | .ok ⟨flags, .value value⟩ =>
          (reading.act flags).bind fun reading => (reading.give habits value).readFrom habits words
      | .ok ⟨flags, .valueInNextWord⟩ =>
          match words with
          | .operand value :: words =>
              (reading.act flags).bind fun reading =>
                (reading.give habits value).readFrom habits words
          | _ => .error (.error .valueMissing)

/-- What is to be done when the whole command line has been read. -/
def finish (reading : Reading) : Except Stop Arguments :=
  if reading.leftovers = [] then .ok reading.arguments
  else .error (.error (.unrecognized reading.leftovers))

end Reading

/-- What a command line says is to be done. -/
def Arguments.ofTexts (habits : Habits) (texts : List Text) : Except Stop Arguments :=
  match Word.ofTexts texts with
  | .error error => .error (.error error)
  | .ok words => (Reading.start.readFrom habits words).bind Reading.finish

end Command
end DollarMath
