import DollarMath.Command.Notice
import DollarMath.Command.Reading
import DollarMath.Gallery
import DollarMath.Text.LineEnd

/-!
# Runs of the program

A run converts its sources one after another.  In place each file is replaced as soon as it is
converted; otherwise the converted texts are joined and go to one file or to the standard output.
A source that cannot be read or replaced is reported, counted and passed over, and the run fails in
the end.  Texts are read and written as UTF-8 everywhere; what is made of a standard input that is
none is up to a handler.
-/

namespace DollarMath
namespace Command

/-- What is made of bytes on the standard input that are the form of no text: a fault, or some text
in their place.  A handler that passes such bytes on as they are makes no text of them, and nothing
is said about runs with one on such bytes. -/
structure Handler where
  /-- What is made of the bytes, which have this fault. -/
  recover : Bytes → Utf8.Fault → Except Utf8.Fault Text

namespace Handler

/-- The handler that makes no text of other bytes. -/
def strict : Handler :=
  ⟨fun _ fault => .error fault⟩

/-- What is made of bytes on the standard input. -/
def decode (handler : Handler) (bytes : Bytes) : Except Utf8.Fault Text :=
  match Utf8.decode bytes with
  | .ok text => .ok text
  | .error fault => handler.recover bytes fault

end Handler

/-- What a run works on. -/
structure World where
  /-- The files. -/
  store : Store
  /-- What is still to be read from the standard input. -/
  stdin : Bytes
  /-- What is made of the standard input where it is no text. -/
  handler : Handler

/-- What a run leaves behind. -/
structure Outcome where
  /-- The exit code. -/
  exit : Nat
  /-- What was written to the standard output. -/
  stdout : Text
  /-- What was said about a command line that was refused. -/
  complaint : Text
  /-- What was logged. -/
  log : List LogLine
  /-- The files. -/
  store : Store

/-- What was written to the standard error, with the lines of the log as they are laid out. -/
def Outcome.stderr (layout : LogLine → Text) (outcome : Outcome) : Text :=
  outcome.complaint ++ outcome.log.flatMap layout

/-- A run between two sources. -/
structure Progress where
  /-- What the run works on. -/
  world : World
  /-- What the run has said. -/
  notices : List Notice
  /-- The converted texts that have not been written. -/
  outputs : List Text
  /-- How many sources could not be read or replaced. -/
  failures : Nat

namespace World

/-- The content of a source, and the world behind the reading. -/
def read (world : World) : Source → Except AccessFault Bytes × World
  | .stdin => (.ok world.stdin, { world with stdin := [] })
  | .file name => (world.store.read (Path.ofText name), world)

/-- The text of which a source has the bytes. -/
def decode (world : World) : Source → Bytes → Except Utf8.Fault Text
  | .stdin => world.handler.decode
  | .file _ => Utf8.decode

/-- The text of a source, and the world behind the reading. -/
def readText (world : World) (source : Source) : Except ReadFault Text × World :=
  let (content, later) := world.read source
  match content with
  | .error fault => (.error (.access fault), later)
  | .ok bytes =>
      match world.decode source bytes with
      | .error fault => (.error (.decoding fault), later)
      | .ok text => (.ok (Text.unifyLineEnds text), later)

/-- Writes a text to a file, with a line end behind it. -/
def writeText (world : World) (name text : Text) : World × Option AccessFault :=
  let (store, fault) := world.store.write (Path.ofText name) (Utf8.encode (Text.closeLine text))
  ({ world with store }, fault)

end World

namespace Progress

/-- A run before its first source. -/
def start (world : World) : Progress :=
  ⟨world, [], [], 0⟩

/-- The run with more said. -/
def say (progress : Progress) (notices : List Notice) : Progress :=
  { progress with notices := progress.notices ++ notices }

/-- The run with one more failure, which is said. -/
def fail (progress : Progress) (notice : Notice) : Progress :=
  { progress.say [notice] with failures := progress.failures + 1 }

/-- What is said about a conversion. -/
def reportNotices (arguments : Arguments) (source : Source) (report : Report) : List Notice :=
  report.firings.map .fired ++ if arguments.report then [.converted source report] else []

/-- The run with a converted text written back or kept for the output. -/
def deliver (progress : Progress) (arguments : Arguments) (source : Source) (content : Text) :
    Progress :=
  if arguments.inPlace then
    match progress.world.writeText source.label content with
    | (world, some fault) => { progress with world }.fail (.unwritable source.label fault)
    | (world, none) => { progress with world }.say [.replaced source]
  else { progress with outputs := progress.outputs ++ [content] }

/-- The run behind one more source. -/
def step (arguments : Arguments) (progress : Progress) (source : Source) : Progress :=
  match progress.world.readText source with
  | (.error fault, world) => { progress with world }.fail (.unreadable source fault)
  | (.ok text, world) =>
      let report := Report.ofText text
      ({ progress with world }.say (reportNotices arguments source report)).deliver arguments
        source report.content

/-- The run behind some sources. -/
def behind (arguments : Arguments) (world : World) (sources : List Source) : Progress :=
  sources.foldl (step arguments) (start world)

/-- The converted texts as one text. -/
def joined (progress : Progress) : Text :=
  (Text.ofString "\n\n").intercalate progress.outputs

/-- The end of a run with an exit code, when the run has written `stdout`. -/
def close (progress : Progress) (arguments : Arguments) (exit : Nat) (stdout : Text) :
    Outcome where
  exit
  stdout
  complaint := []
  log := (progress.notices.filter (Notice.isLogged arguments.verbose)).map Notice.line
  store := progress.world.store

/-- The end of a run that has written its output. -/
def conclude (progress : Progress) (arguments : Arguments) (stdout : Text) : Outcome :=
  if progress.failures = 0 then progress.close arguments 0 stdout
  else (progress.say [.failed progress.failures]).close arguments 1 stdout

/-- The end of a run that has converted its sources. -/
def finish (progress : Progress) (arguments : Arguments) : Outcome :=
  if arguments.inPlace then progress.conclude arguments []
  else
    match arguments.output with
    | none => progress.conclude arguments (Text.closeLine progress.joined)
    | some output =>
        match progress.world.writeText output progress.joined with
        | (world, some fault) =>
            ({ progress with world }.say [.unwritable output fault]).close arguments 1 []
        | (world, none) => ({ progress with world }.say [.saved output]).conclude arguments []

end Progress

/-- An example as it is shown, under its number in the gallery. -/
def showExample (number : Nat) (entry : Example) : Text :=
  "[" ++ Text.decimal number ++ "] " ++ entry.title ++ ": " ++ entry.description ++ "\n" ++
    "--- ChatGPT style\n" ++ entry.source ++ "\n" ++
    "--- Obsidian compatible\n" ++ entry.converted ++ "\n\n"

/-- The whole gallery as it is shown. -/
def showGallery : Text :=
  (Example.gallery.zipIdx 1).flatMap fun (entry, number) => showExample number entry

/-- What a command line does to a world. -/
def run (habits : Habits) (texts : List Text) (world : World) : Outcome :=
  match Arguments.ofTexts habits texts with
  | .error .help => ⟨0, help, [], [], world.store⟩
  | .error (.error error) => ⟨2, [], error.render, [], world.store⟩
  | .ok arguments =>
      if arguments.examples then ⟨0, showGallery, [], [], world.store⟩
      else
        match arguments.checked with
        | .error error => ⟨2, [], error.render, [], world.store⟩
        | .ok arguments =>
            (Progress.behind arguments world arguments.sourcesOrStdin).finish arguments

end Command
end DollarMath
