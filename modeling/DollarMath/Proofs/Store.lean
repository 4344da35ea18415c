import DollarMath.Proofs.Text.Utf8
import DollarMath.Store.Basic
import Mathlib.Data.Set.Basic

/-!
# Writing to a store

A write changes what stands at the one place its path leads to, if the file there is opened.  The
path leads there still behind the write, because every place on the way is a directory and a
directory is not written to.  Writing over files leaves all paths as they are, so a row of such
writes changes the places that its paths lead to from the start.
-/

namespace DollarMath
namespace Store

variable {store other : Store} {path : Path} {location : Location} {content : Bytes}

/-- Steps pass through directories only, so they lead to the same place in every store that has
these on the same device. -/
theorem walk_of_directories (device : other.device = store.device)
    (kept : ∀ place, store.find? place = some .directory → other.find? place = some .directory)
    {start : Location} {steps : List Text} (walked : store.walk start steps = .ok location) :
    other.walk start steps = .ok location := by
  induction steps generalizing start with
  | nil => exact walked
  | cons name steps ih =>
      rw [walk] at walked ⊢
      split at walked
      · rename_i here
        rw [kept start here, device]
        split at walked
        · exact ih walked
        · cases walked
      · cases walked
      · cases walked

theorem read_eq_ok_iff :
    store.read path = .ok content ↔
      ∃ location, store.locate path = .ok location ∧
        store.find? location = some (.file content) ∧ store.device.read location = none := by
  rw [read]
  cases store.locate path with
  | error fault => simp [Except.bind]
  | ok location =>
      rcases found : store.find? location with _ | _ | bytes <;>
        rcases refused : store.device.read location with _ | error <;>
        simp [Except.bind, found, refused]

/-- The file that a path leads to has this content. -/
def Holds (store : Store) (path : Path) (content : Bytes) : Prop :=
  ∃ location, store.locate path = .ok location ∧ store.find? location = some (.file content)

section Write

/-- What the writing of a content to a path makes of a store, and what goes wrong with it. -/
inductive Writes (store : Store) (path : Path) (content : Bytes) :
    Store → Option AccessFault → Prop where
  /-- The file is not opened, and nothing changes. -/
  | unopened {fault : AccessFault} (closed : ∀ error, fault ≠ .broken error) :
      Writes store path content store (some fault)
  /-- The writing breaks off: the file holds the beginning of the content that got in. -/
  | broken {location : Location} {kept : Nat} {error : SystemError}
      (located : store.locate path = .ok location)
      (apart : store.find? location ≠ some .directory)
      (granted : store.device.write location = none)
      (short : store.cut location content = some (kept, error)) :
      Writes store path content (store.put location (.file (content.take kept)))
        (some (.broken error))
  /-- The file holds the content. -/
  | whole {location : Location} (located : store.locate path = .ok location)
      (apart : store.find? location ≠ some .directory)
      (granted : store.device.write location = none)
      (room : store.cut location content = none) :
      Writes store path content (store.put location (.file content)) none

theorem walk_ne_broken (start : Location) (steps : List Text) (error : SystemError) :
    store.walk start steps ≠ .error (.broken error) := by
  induction steps generalizing start with
  | nil => simp [walk]
  | cons name steps ih =>
      rw [walk]
      split
      · split
        · exact ih _
        · simp
      · simp
      · simp

theorem writes_write (store : Store) (path : Path) (content : Bytes) :
    Writes store path content (store.write path content).1 (store.write path content).2 := by
  rw [write]
  split
  · rename_i fault failed
    exact .unopened fun error same => walk_ne_broken _ _ error (same ▸ failed)
  · rename_i location located
    split
    · exact .unopened (by simp)
    · exact .unopened (by simp)
    · rename_i granted apart
      rw [fill]
      split
      · rename_i room
        exact .whole located apart granted room
      · rename_i kept error short
        exact .broken located apart granted short

theorem names_ne_nil (apart : store.find? location ≠ some .directory) : location.names ≠ [] :=
  fun top => apart (if_pos top)

theorem locate_put (located : store.locate path = .ok location)
    (apart : store.find? location ≠ some .directory) (bytes : Bytes) :
    (store.put location (.file bytes)).locate path = .ok location := by
  refine walk_of_directories (device_put store location _) (fun place directory => ?_) located
  have elsewhere : place ≠ location := fun same => apart (same ▸ directory)
  rw [find?_put_of_ne store _ elsewhere, directory]

namespace Writes

variable {later : Store} {fault : Option AccessFault}

theorem eq_or_put (writes : Writes store path content later fault) :
    later = store ∨ ∃ location bytes, store.locate path = .ok location ∧
      store.find? location ≠ some .directory ∧ later = store.put location (.file bytes) := by
  cases writes with
  | unopened _ => exact .inl rfl
  | broken located apart _ _ => exact .inr ⟨_, _, located, apart, rfl⟩
  | whole located apart _ _ => exact .inr ⟨_, _, located, apart, rfl⟩

/-- A write changes nothing but the place that its path leads to. -/
theorem find?_of_ne (writes : Writes store path content later fault)
    (elsewhere : store.locate path ≠ .ok location) :
    later.find? location = store.find? location := by
  obtain rfl | ⟨place, bytes, located, _, rfl⟩ := writes.eq_or_put
  · rfl
  · exact find?_put_of_ne store _ fun same => elsewhere (same ▸ located)

theorem found (writes : Writes store path content later fault)
    (located : store.locate path = .ok location) :
    later = store ∨
      (∃ error, fault = some (.broken error)) ∨ later.find? location = some (.file content) := by
  cases writes with
  | unopened _ => exact .inl rfl
  | broken _ _ _ _ => exact .inr (.inl ⟨_, rfl⟩)
  | whole reached apart _ _ =>
      obtain rfl := Except.ok.inj (located.symm.trans reached)
      exact .inr (.inr (find?_put_self store _ (names_ne_nil apart)))

/-- What is written without a fault is held. -/
theorem holds (writes : Writes store path content later none) : later.Holds path content := by
  cases writes with
  | whole located apart _ _ =>
      exact ⟨_, locate_put located apart content, find?_put_self store _ (names_ne_nil apart)⟩

end Writes
end Write

/-- A file stands at this place. -/
def HoldsFile (store : Store) (location : Location) : Prop :=
  ∃ bytes, store.find? location = some (.file bytes)

/-- A file that can be read as a text stands at this place. -/
def IsReadable (store : Store) (location : Location) : Prop :=
  store.device.read location = none ∧
    ∃ bytes text, store.find? location = some (.file bytes) ∧ Utf8.decode bytes = .ok text

theorem HoldsFile.ne_directory (held : store.HoldsFile location) :
    store.find? location ≠ some .directory := by
  obtain ⟨bytes, file⟩ := held
  simp [file]

theorem IsReadable.holdsFile (readable : store.IsReadable location) : store.HoldsFile location := by
  obtain ⟨_, bytes, _, found, _⟩ := readable
  exact ⟨bytes, found⟩

theorem isReadable_congr (device : other.device = store.device)
    (same : other.find? location = store.find? location) :
    other.IsReadable location ↔ store.IsReadable location := by
  rw [IsReadable, IsReadable, device, same]

/-- A store later holds what it held, but for files in some places that have other contents. -/
structure Rewritten (places : Set Location) (earlier later : Store) : Prop where
  /-- It is kept on the same device. -/
  device : later.device = earlier.device
  /-- Its working directory is the same. -/
  working : later.working = earlier.working
  /-- What stands at a place is the same, or a file both times. -/
  found (location : Location) : later.find? location = earlier.find? location ∨
    location ∈ places ∧ earlier.HoldsFile location ∧ later.HoldsFile location

namespace Rewritten

variable {places wider : Set Location} {earlier later latest : Store}

theorem refl (places : Set Location) (store : Store) : Rewritten places store store :=
  ⟨rfl, rfl, fun _ => .inl rfl⟩

theorem mono (within : places ⊆ wider) (rewritten : Rewritten places earlier later) :
    Rewritten wider earlier later :=
  ⟨rewritten.device, rewritten.working, fun location =>
    (rewritten.found location).imp_right (And.imp_left fun member => within member)⟩

theorem holdsFile_iff (rewritten : Rewritten places earlier later) (location : Location) :
    later.HoldsFile location ↔ earlier.HoldsFile location := by
  obtain same | ⟨_, before, behind⟩ := rewritten.found location
  · rw [HoldsFile, HoldsFile, same]
  · exact iff_of_true behind before

theorem trans (first : Rewritten places earlier later) (second : Rewritten places later latest) :
    Rewritten places earlier latest := by
  refine ⟨second.device.trans first.device, second.working.trans first.working, ?_⟩
  intro location
  obtain same | ⟨member, between, behind⟩ := second.found location
  · rw [HoldsFile, HoldsFile, same, ← HoldsFile, ← HoldsFile]
    exact first.found location
  · exact .inr ⟨member, (first.holdsFile_iff location).mp between, behind⟩

theorem directory_iff (rewritten : Rewritten places earlier later) (location : Location) :
    later.find? location = some .directory ↔ earlier.find? location = some .directory := by
  obtain same | ⟨_, before, behind⟩ := rewritten.found location
  · rw [same]
  · exact iff_of_false behind.ne_directory before.ne_directory

/-- Every path leads where it led before. -/
theorem locate_eq_ok_iff (rewritten : Rewritten places earlier later) :
    later.locate path = .ok location ↔ earlier.locate path = .ok location := by
  rw [locate, locate, startOf, startOf, rewritten.working]
  exact ⟨walk_of_directories rewritten.device.symm fun place => (rewritten.directory_iff place).mp,
    walk_of_directories rewritten.device fun place => (rewritten.directory_iff place).mpr⟩

theorem find?_of_not_mem (rewritten : Rewritten places earlier later)
    (elsewhere : location ∉ places) : later.find? location = earlier.find? location :=
  (rewritten.found location).resolve_right fun replaced => elsewhere replaced.1

end Rewritten

/-- A write over a file changes its content at most. -/
theorem Writes.rewritten {later : Store} {fault : Option AccessFault}
    (writes : Writes store path content later fault)
    (located : store.locate path = .ok location) (held : store.HoldsFile location) :
    Rewritten {location} store later := by
  obtain rfl | ⟨place, bytes, reached, _, rfl⟩ := writes.eq_or_put
  · exact .refl _ _
  · obtain rfl := Except.ok.inj (located.symm.trans reached)
    refine ⟨rfl, rfl, fun other => ?_⟩
    by_cases same : other = location
    · subst same
      exact .inr ⟨rfl, held, bytes, find?_put_self store _ (names_ne_nil held.ne_directory)⟩
    · exact .inl (find?_put_of_ne store _ same)

end Store
end DollarMath
