import DollarMath.Command.Run

/-!
# The program

The files that the command line names are read into a store, the run takes place on the store, and
the files that it changed are written.  The disk is taken to have room for them.
-/

namespace DollarMath
namespace Command

/-- What stands on the disk at a path, and what goes wrong when that is read. -/
def observe (path : String) : IO (Option (Entry × Option SystemError)) := do
  try
    return some (.file (← IO.FS.readBinFile path).toList, none)
  catch error =>
    match error with
    | .inappropriateType _ 21 _ => return some (.directory, none)
    | .permissionDenied _ number text =>
        return some (.file [], some ⟨number.toNat, Text.ofString text, true⟩)
    | _ => return none

/-- The store with what stands on the disk along a path. -/
def gather (store : Store) (path : Path) : IO Store := do
  let mut store := store
  let mut location := store.startOf path
  for name in path.steps do
    location := location.step name
    if store.find? location = none then
      if let some (entry, refusal) ← observe (String.ofList location.path.render) then
        let device := store.device
        let place := location
        let read := fun other => if other = place then refusal else device.read other
        store := { store.put location entry with device := { device with read } }
  return store

/-- Everything that the standard input holds. -/
def readStdin : IO Bytes := do
  let stdin ← IO.getStdin
  let mut content := ByteArray.empty
  repeat do
    let chunk ← stdin.read 65536
    if chunk.isEmpty then break
    content := content ++ chunk
  return content.toList

/-- The habits of the reader of command lines. -/
def habits : Habits :=
  ⟨false, true, true⟩

/-- The world in which a command line is run. -/
def worldFor (texts : List Text) : IO World := do
  let working := Path.ofText (Text.ofString (← IO.FS.realPath ".").toString)
  let store := Store.bare ⟨working.steps⟩ .roomy
  match Arguments.ofTexts habits texts with
  | .error _ => return ⟨store, [], .strict⟩
  | .ok arguments =>
      let store ← arguments.fileNames.foldlM (fun store name => gather store (Path.ofText name))
        store
      if .stdin ∈ arguments.sourcesOrStdin ∧ arguments.examples = false then
        return ⟨store, ← readStdin, .strict⟩
      else return ⟨store, [], .strict⟩

/-- Writes the files that differ from those of the store before the run. -/
def writeBack (before : Store) (after : Store) : IO Unit := do
  for (location, entry) in after.entries do
    if let .file content := entry then
      if before.find? location ≠ some entry then
        IO.FS.writeBinFile (String.ofList location.path.render) ⟨content.toArray⟩

/-- A log line as it is shown. -/
def layOut (line : LogLine) : Text :=
  line.level.name ++ ": " ++ line.message ++ "\n"

end Command
end DollarMath

open DollarMath

/-- Runs the program with the words of its command line. -/
def main (words : List String) : IO UInt32 := do
  let texts := words.map Text.ofString
  let world ← Command.worldFor texts
  let outcome := Command.run Command.habits texts world
  Command.writeBack world.store outcome.store
  IO.print (String.ofList outcome.stdout)
  IO.eprint (String.ofList (outcome.stderr Command.layOut))
  return outcome.exit.toUInt32
