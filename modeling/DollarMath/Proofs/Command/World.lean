import DollarMath.Command.Run
import DollarMath.Proofs.Store

/-!
# Reading sources

A source gives the text of which it has the bytes, and a reading leaves the files alone.  The
standard input is at its end once it has been read.
-/

namespace DollarMath

/-- The text that bytes hold, with its line ends made alike, if they hold one. -/
def Text.ofBytes? (bytes : Bytes) : Option Text :=
  (Utf8.decode bytes).toOption.map unifyLineEnds

namespace Command
namespace World

variable {world : World} {name text : Text} {source : Source}

theorem readText_snd (world : World) (source : Source) :
    (world.readText source).2 = (world.read source).2 := by
  rw [readText]
  rcases world.read source with ⟨fault | bytes, later⟩
  · rfl
  · cases decoded : world.decode source bytes <;> simp only [decoded]

theorem readText_store (world : World) (source : Source) :
    (world.readText source).2.store = world.store := by
  rw [readText_snd]
  cases source <;> rfl

theorem readText_file_snd (world : World) (name : Text) :
    (world.readText (.file name)).2 = world := by
  rw [readText_snd, read]

theorem toOption_eq_some_iff {ε α : Type} {result : Except ε α} {value : α} :
    result.toOption = some value ↔ result = .ok value := by
  cases result <;> simp [Except.toOption]

/-- A source whose bytes are read as UTF-8 gives the text that they hold. -/
theorem toOption_readText_of_decode
    (utf8 : ∀ bytes, (world.read source).1 = .ok bytes →
      world.decode source bytes = Utf8.decode bytes) :
    (world.readText source).1.toOption = (world.read source).1.toOption.bind Text.ofBytes? := by
  rw [readText]
  rcases read : world.read source with ⟨fault | bytes, later⟩
  · rfl
  · simp only [utf8 bytes (by rw [read])]
    cases decoded : Utf8.decode bytes <;> simp [Text.ofBytes?, decoded, Except.toOption]

theorem toOption_readText_file (world : World) (name : Text) :
    (world.readText (.file name)).1.toOption =
      (world.store.read (Path.ofText name)).toOption.bind Text.ofBytes? :=
  toOption_readText_of_decode fun _ _ => rfl

theorem readText_file_eq_ok_iff :
    (world.readText (.file name)).1 = .ok text ↔
      ∃ bytes, world.store.read (Path.ofText name) = .ok bytes ∧
        Text.ofBytes? bytes = some text := by
  rw [← toOption_eq_some_iff, toOption_readText_file, Option.bind_eq_some_iff]
  simp only [toOption_eq_some_iff]

/-- A file can be read exactly when its name leads to a readable text. -/
theorem exists_readText_file_iff :
    (∃ text, (world.readText (.file name)).1 = .ok text) ↔
      ∃ location, world.store.locate (Path.ofText name) = .ok location ∧
        world.store.IsReadable location := by
  constructor
  · rintro ⟨text, read⟩
    obtain ⟨bytes, read, held⟩ := readText_file_eq_ok_iff.mp read
    obtain ⟨plain, decoded, _⟩ := Option.map_eq_some_iff.mp held
    obtain ⟨location, located, found, granted⟩ := Store.read_eq_ok_iff.mp read
    exact ⟨location, located, granted, bytes, plain, found, toOption_eq_some_iff.mp decoded⟩
  · rintro ⟨location, located, granted, bytes, plain, found, decoded⟩
    have held : Text.ofBytes? bytes = some (Text.unifyLineEnds plain) :=
      Option.map_eq_some_iff.mpr ⟨plain, toOption_eq_some_iff.mpr decoded, rfl⟩
    have read := Store.read_eq_ok_iff.mpr ⟨location, located, found, granted⟩
    exact ⟨_, readText_file_eq_ok_iff.mpr ⟨bytes, read, held⟩⟩

theorem write_of_writeText {behind : World} {fault : Option AccessFault}
    (written : world.writeText name text = (behind, fault)) :
    world.store.write (Path.ofText name) (Utf8.encode (Text.closeLine text)) =
      (behind.store, fault) := by
  rw [writeText] at written
  obtain ⟨rfl, rfl⟩ := Prod.mk.inj written
  rfl

theorem writes_of_writeText {behind : World} {fault : Option AccessFault}
    (written : world.writeText name text = (behind, fault)) :
    world.store.Writes (Path.ofText name) (Utf8.encode (Text.closeLine text)) behind.store
      fault := by
  have writes := world.store.writes_write (Path.ofText name) (Utf8.encode (Text.closeLine text))
  rwa [write_of_writeText written] at writes

/-- The sources are read as UTF-8: if the standard input is one of them, its handler makes no text
of other bytes, or there are none. -/
def ReadsUtf8 (world : World) (sources : List Source) : Prop :=
  .stdin ∈ sources → world.handler = .strict ∨ ∃ text, Utf8.decode world.stdin = .ok text

theorem readsUtf8_of_not_mem {sources : List Source} (files : .stdin ∉ sources) :
    world.ReadsUtf8 sources :=
  fun member => absurd member files

namespace ReadsUtf8

variable {sources : List Source}

theorem decode_eq (utf8 : world.ReadsUtf8 (source :: sources)) {bytes : Bytes}
    (read : (world.read source).1 = .ok bytes) :
    world.decode source bytes = Utf8.decode bytes := by
  cases source with
  | file name => rfl
  | stdin =>
      obtain rfl := Except.ok.inj read
      rw [decode, Handler.decode]
      cases decoded : Utf8.decode world.stdin with
      | ok text => rfl
      | error fault =>
          obtain strict | ⟨text, held⟩ := utf8 List.mem_cons_self
          · simp only [strict, Handler.strict]
          · cases decoded.symm.trans held

theorem toOption_readText (utf8 : world.ReadsUtf8 (source :: sources)) :
    (world.readText source).1.toOption = (world.read source).1.toOption.bind Text.ofBytes? :=
  toOption_readText_of_decode fun _ => utf8.decode_eq

/-- The end of the standard input holds the empty text. -/
theorem tail (utf8 : world.ReadsUtf8 (source :: sources)) :
    (world.readText source).2.ReadsUtf8 sources := by
  rw [readText_snd]
  cases source with
  | file name => exact fun member => utf8 (List.mem_cons_of_mem _ member)
  | stdin => exact fun _ => .inr ⟨[], by rw [World.read, Utf8.decode, Utf8.decodeFrom]⟩

end ReadsUtf8

/-- The bytes of some sources, where they can be reached.  The standard input is at its end once
it has been read. -/
def contents (world : World) : List Source → List (Option Bytes)
  | [] => []
  | .stdin :: sources => some world.stdin :: contents { world with stdin := [] } sources
  | .file name :: sources =>
      (world.store.read (Path.ofText name)).toOption :: world.contents sources

/-- The texts of some sources, where they can be read. -/
def readings (world : World) (sources : List Source) : List (Option Text) :=
  (world.contents sources).map fun content => content.bind Text.ofBytes?

/-- The texts of the sources that can be read, in order. -/
def texts (world : World) (sources : List Source) : List Text :=
  (world.readings sources).filterMap id

theorem readings_cons {sources : List Source} (utf8 : world.ReadsUtf8 (source :: sources)) :
    world.readings (source :: sources) =
      (world.readText source).1.toOption :: (world.readText source).2.readings sources := by
  rw [utf8.toOption_readText, readText_snd]
  cases source <;> rfl

theorem texts_cons {sources : List Source} (utf8 : world.ReadsUtf8 (source :: sources)) :
    world.texts (source :: sources) =
      (world.readText source).1.toOption.toList ++ (world.readText source).2.texts sources := by
  rw [texts, texts, readings_cons utf8, List.filterMap_cons]
  cases (world.readText source).1 <;> rfl

end World
end Command
end DollarMath
