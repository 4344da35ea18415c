import DollarMath.Command.Arguments
import DollarMath.Conversion
import DollarMath.Log
import DollarMath.Store.Basic

/-!
# Notices

What a run has to say about its sources and its output.  Every notice is one line of the log.
-/

namespace DollarMath
namespace Command

/-- Why a source cannot be read. -/
inductive ReadFault where
  /-- The file cannot be reached. -/
  | access (fault : AccessFault)
  /-- The content is no text. -/
  | decoding (fault : Utf8.Fault)
  deriving DecidableEq, Repr

/-- Something that a run says. -/
inductive Notice where
  /-- A stage changed a text. -/
  | fired (firing : Firing)
  /-- A source was converted. -/
  | converted (source : Source) (report : Report)
  /-- A source could not be read. -/
  | unreadable (source : Source) (fault : ReadFault)
  /-- A source was replaced by its converted text. -/
  | replaced (source : Source)
  /-- A file could not be written. -/
  | unwritable (label : Text) (fault : AccessFault)
  /-- The converted text was written to a file. -/
  | saved (output : Text)
  /-- Some sources could not be converted. -/
  | failed (count : Nat)
  deriving DecidableEq, Repr

/-- A failed reading in words. -/
def ReadFault.message (source : Source) : ReadFault → Text
  | .access fault => fault.message (Path.ofText source.label)
  | .decoding fault => fault.message

/-- The stages of a report in one line. -/
def stageList (report : Report) : Text :=
  match report.stages with
  | [] => "none"
  | stages => (Text.ofString ", ").intercalate (stages.map Stage.name)

namespace Notice

/-- How much a notice matters. -/
def level : Notice → LogLevel
  | .fired _ => .debug
  | .converted _ _ => .info
  | .unreadable _ _ => .error
  | .replaced _ => .info
  | .unwritable _ _ => .error
  | .saved _ => .info
  | .failed _ => .error

/-- A notice in words. -/
def message : Notice → Text
  | .fired firing => firing.message
  | .converted source report =>
      source.label ++ ": dialect=" ++ report.dialect.name ++ " changed=" ++
        (if report.changed then "True" else "False") ++ " stages=" ++ stageList report
  | .unreadable source fault =>
      "Could not read " ++ source.label ++ ": " ++ fault.message source
  | .replaced source => "Rewrote " ++ source.label
  | .unwritable label fault =>
      "Could not write " ++ label ++ ": " ++ fault.message (Path.ofText label)
  | .saved output => "Saved converted text to " ++ output
  | .failed count => Text.decimal count ++ " source(s) failed"

/-- The log line of a notice. -/
def line (notice : Notice) : LogLine :=
  ⟨notice.level, notice.message⟩

/-- Whether a notice is about something that could not be done. -/
def isError (notice : Notice) : Bool :=
  notice.level == .error

/-- Whether a notice is logged: details are logged on request only. -/
def isLogged (verbose : Bool) (notice : Notice) : Bool :=
  verbose || notice.level != .debug

end Notice
end Command
end DollarMath
