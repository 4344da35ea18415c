import DollarMath.Store.Path
import DollarMath.Text.Utf8

/-!
# Stores

A store holds the files and directories that a run can reach.  Paths lead on from the root
directory or from the working directory, and there are no links: a place has one file, and names of
a file that look different lead to the same place.  Reading leaves a store alone; writing changes
the one file that the path leads to, which is emptied first.  Which accesses are granted, and how
much of a content gets in, is up to the device that the store is kept on.
-/

namespace DollarMath

/-- A place for a file or directory. -/
structure Location where
  /-- The names on the way from the root directory, the last of which is the place's own. -/
  names : List Text
  deriving DecidableEq, Repr

namespace Location

/-- The place one step on.  There is nothing above the root directory. -/
def step (location : Location) (name : Text) : Location :=
  if name = Path.up then ⟨location.names.dropLast⟩ else ⟨location.names ++ [name]⟩

/-- The path by which a place is reached from the root directory. -/
def path (location : Location) : Path :=
  ⟨"/", location.names⟩

end Location

/-- What stands at a place. -/
inductive Entry where
  /-- A directory. -/
  | directory
  /-- A file with its content. -/
  | file (content : Bytes)
  deriving DecidableEq, Repr

/-- An error that the system reports. -/
structure SystemError where
  /-- The number of the error. -/
  number : Nat
  /-- The error in words. -/
  text : Text
  /-- Whether it is reported with the path. -/
  withPath : Bool
  deriving DecidableEq, Repr

/-- An error at a path as it is reported. -/
def SystemError.message (path : Path) (error : SystemError) : Text :=
  let place := if error.withPath then ": " ++ Text.quoted path.render else []
  "[Errno " ++ Text.decimal error.number ++ "] " ++ error.text ++ place

/-- Why a file cannot be read or written. -/
inductive AccessFault where
  /-- Something on the way is not there. -/
  | missing
  /-- A directory stands where a file is needed. -/
  | isDirectory
  /-- A file stands where a directory is needed. -/
  | notDirectory
  /-- What is there is not opened. -/
  | refused (error : SystemError)
  /-- The writing breaks off behind the opening of the file. -/
  | broken (error : SystemError)
  deriving DecidableEq, Repr

namespace AccessFault

/-- The error that the system reports. -/
def error : AccessFault → SystemError
  | .missing => ⟨2, "No such file or directory", true⟩
  | .isDirectory => ⟨21, "Is a directory", true⟩
  | .notDirectory => ⟨20, "Not a directory", true⟩
  | .refused error => error
  | .broken error => error

/-- A failed access in words. -/
def message (path : Path) (fault : AccessFault) : Text :=
  fault.error.message path

end AccessFault

/-- What files and directories are kept on.  Whether something may be opened is a matter of its
place; how much gets into a file may depend on everything that stands in the store. -/
structure Device where
  /-- What goes wrong when a name is looked up in the directory at a place. -/
  lookup : Location → Text → Option SystemError
  /-- What goes wrong when the file at a place is read. -/
  read : Location → Option SystemError
  /-- What goes wrong when the file at a place is opened to be written. -/
  write : Location → Option SystemError
  /-- How many bytes of a content get into the file at a place that has been opened, and what goes
  wrong behind them, if anything does. -/
  cut : List (Location × Entry) → Location → Bytes → Option (Nat × SystemError)

namespace Device

/-- A device that grants everything and has room for everything. -/
def roomy : Device where
  lookup _ _ := none
  read _ := none
  write _ := none
  cut _ _ _ := none

/-- A device that grants everything and has no room for another byte. -/
def full (error : SystemError) : Device where
  lookup _ _ := none
  read _ := none
  write _ := none
  cut _ _ content := if content = [] then none else some (0, error)

/-- A device that grants everything and has room for so many bytes in all. -/
def bounded (size : Nat) (error : SystemError) : Device where
  lookup _ _ := none
  read _ := none
  write _ := none
  cut entries _ content :=
    let held := entries.foldl (fun held entry =>
      match entry.2 with
      | .file bytes => held + bytes.length
      | .directory => held) 0
    if held + content.length ≤ size then none else some (size - held, error)

end Device

/-- The files and directories that a run can reach. -/
structure Store where
  /-- What stands at places below the root directory. -/
  entries : List (Location × Entry)
  /-- The place from which paths lead on that do not start at the root directory. -/
  working : Location
  /-- What the files and directories are kept on. -/
  device : Device

namespace Store

/-- What stands at a place. -/
def find? (store : Store) (location : Location) : Option Entry :=
  if location.names = [] then some .directory else store.entries.lookup location

/-- The store with an entry put at a place. -/
def put (store : Store) (location : Location) (entry : Entry) : Store :=
  { store with
    entries := (location, entry) :: store.entries.filter fun other => other.1 ≠ location }

@[simp]
theorem device_put (store : Store) (location : Location) (entry : Entry) :
    (store.put location entry).device = store.device := rfl

@[simp]
theorem find?_put_self (store : Store) {location : Location} (entry : Entry)
    (below : location.names ≠ []) : (store.put location entry).find? location = some entry := by
  simp [find?, put, below]

@[simp]
theorem find?_put_of_ne (store : Store) {location other : Location} (entry : Entry)
    (apart : other ≠ location) :
    (store.put location entry).find? other = store.find? other := by
  have kept : ∀ entries : List (Location × Entry),
      (entries.filter fun pair => pair.1 ≠ location).lookup other = entries.lookup other := by
    intro entries
    induction entries with
    | nil => rfl
    | cons pair entries ih =>
        obtain ⟨place, content⟩ := pair
        by_cases same : place = location
        · subst same
          have differ : (other == place) = false := by simpa using apart
          simpa [List.lookup_cons, differ] using ih
        · simp only [List.filter_cons, ne_eq, same, not_false_eq_true, decide_true, if_true,
            List.lookup_cons]
          rw [← ih]
  have differ : (other == location) = false := by simpa using apart
  simp only [find?, put, List.lookup_cons, differ, kept]

/-- The place that steps lead to.  Every place on the way has to be a directory in which the next
name may be looked up. -/
def walk (store : Store) (location : Location) : List Text → Except AccessFault Location
  | [] => .ok location
  | name :: names =>
      match store.find? location with
      | some .directory =>
          match store.device.lookup location name with
          | none => store.walk (location.step name) names
          | some error => .error (.refused error)
      | some (.file _) => .error .notDirectory
      | none => .error .missing

/-- The place from which a path leads on. -/
def startOf (store : Store) (path : Path) : Location :=
  if path.root = [] then store.working else ⟨[]⟩

/-- The place that a path leads to. -/
def locate (store : Store) (path : Path) : Except AccessFault Location :=
  store.walk (store.startOf path) path.steps

/-- The content of the file that a path leads to. -/
def read (store : Store) (path : Path) : Except AccessFault Bytes :=
  (store.locate path).bind fun location =>
    match store.find? location, store.device.read location with
    | none, _ => .error .missing
    | some _, some error => .error (.refused error)
    | some .directory, none => .error .isDirectory
    | some (.file content), none => .ok content

/-- Where the writing of a content to the file at a place breaks off, and why, if it does.  The
file has been emptied before. -/
def cut (store : Store) (location : Location) (content : Bytes) : Option (Nat × SystemError) :=
  store.device.cut (store.put location (.file [])).entries location content

/-- The store with a file at a place opened and a content written to it. -/
def fill (store : Store) (location : Location) (content : Bytes) : Store × Option AccessFault :=
  match store.cut location content with
  | none => (store.put location (.file content), none)
  | some (kept, error) => (store.put location (.file (content.take kept)), some (.broken error))

/-- Writes content to the file that a path leads to, which is made if it is not there.  The second
part is what went wrong. -/
def write (store : Store) (path : Path) (content : Bytes) : Store × Option AccessFault :=
  match store.locate path with
  | .error fault => (store, some fault)
  | .ok location =>
      match store.find? location, store.device.write location with
      | some .directory, _ => (store, some .isDirectory)
      | _, some error => (store, some (.refused error))
      | _, none => store.fill location content

/-- The store with a directory at a place, and those on the way to it. -/
def addDirectory (store : Store) (location : Location) : Store :=
  (List.range location.names.length).foldl
    (fun store above => store.put ⟨location.names.take (above + 1)⟩ .directory) store

/-- The store with nothing but its working directory. -/
def bare (working : Location) (device : Device) : Store :=
  (Store.mk [] working device).addDirectory working

/-- The place to which steps lead down from the working directory. -/
def below (store : Store) (steps : List Text) : Location :=
  ⟨store.working.names ++ steps⟩

/-- The store with a file below the working directory, and the directories on the way to it. -/
def addFile (store : Store) (name : Text) (content : Bytes) : Store :=
  let steps := (Path.ofText name).steps
  (store.addDirectory (store.below steps.dropLast)).put (store.below steps) (.file content)

/-- The files below the working directory with their names. -/
def files (store : Store) : List (Text × Bytes) :=
  store.entries.filterMap fun
    | (location, .file content) =>
        if store.working.names.isPrefixOf location.names then
          some (Path.render ⟨[], location.names.drop store.working.names.length⟩, content)
        else none
    | (_, .directory) => none

end Store
end DollarMath
