import DollarMath.Proofs.Command.Account
import DollarMath.Proofs.Command.Line

/-!
# Runs in succession

A run in place treats its files one after another as runs with one file each would.  What it does
to a file depends on what that file holds and on how much of the converted text gets in, so files in
different places may be named in any order as long as they do not take each other's room.
-/

namespace DollarMath

namespace Store

variable {store other : Store} {location : Location} {name name' : Text} {names : List Text}

/-- The text of the file at a place, if it can be read. -/
def textAt? (store : Store) (location : Location) : Option Text :=
  match store.find? location, store.device.read location with
  | some (.file bytes), none => Text.ofBytes? bytes
  | _, _ => none

/-- The text of the file that a name leads to, if it can be read. -/
def text? (store : Store) (name : Text) : Option Text :=
  (store.read (Path.ofText name)).toOption.bind Text.ofBytes?

/-- What a file comes to hold when it is replaced by the conversion of a text. -/
def replacement (text : Text) : Bytes :=
  Utf8.encode (Text.closeLine (convert text))

/-- The store with the file that a name leads to replaced by its converted text, and whether
something went wrong. -/
def replace (store : Store) (name : Text) : Store × Bool :=
  match store.text? name with
  | none => (store, true)
  | some text =>
      let (later, fault) := store.write (Path.ofText name) (replacement text)
      (later, fault.isSome)

/-- The store with the files that some names lead to replaced one after another, and whether
something went wrong with any of them. -/
def replaceAll (store : Store) : List Text → Store × Bool
  | [] => (store, false)
  | name :: names =>
      let (later, failed) := store.replace name
      let (last, failedLater) := later.replaceAll names
      (last, failed || failedLater)

/-- What stands at a place when the file there has been replaced by its converted text, and whether
something went wrong. -/
def replaced (store : Store) (location : Location) : Option Entry × Bool :=
  match store.textAt? location with
  | none => (store.find? location, true)
  | some text =>
      match store.device.write location, store.cut location (replacement text) with
      | some _, _ => (store.find? location, true)
      | none, some (kept, _) => (some (.file ((replacement text).take kept)), true)
      | none, none => (some (.file (replacement text)), false)

/-- Whether something goes wrong when the file that a name leads to is replaced. -/
def fails (store : Store) (name : Text) : Bool :=
  match store.locate (Path.ofText name) with
  | .error _ => true
  | .ok location => (store.replaced location).2

/-- How much of its converted text gets into one of these files does not depend on which of the
others have been converted before: they do not take each other's room. -/
def HasRoomApart (store : Store) (names : List Text) : Prop :=
  ∀ (before : List Text) (name : Text) (location : Location) (text : Text),
    before ⊆ names → name ∈ names →
    store.locate (Path.ofText name) = .ok location → store.textAt? location = some text →
    (∀ other ∈ before, store.locate (Path.ofText other) ≠ .ok location) →
      (store.replaceAll before).1.cut location (replacement text) =
        store.cut location (replacement text)

section Replace

theorem replace_of_unreadable (unreadable : store.text? name = none) :
    store.replace name = (store, true) := by
  rw [replace, unreadable]

theorem replace_of_write {text : Text} {later : Store} {fault : Option AccessFault}
    (held : store.text? name = some text)
    (written : store.write (Path.ofText name) (replacement text) = (later, fault)) :
    store.replace name = (later, fault.isSome) := by
  rw [replace, held]
  simp only [written]

end Replace

section ReplaceAll

theorem replaceAll_cons (store : Store) (name : Text) (names : List Text) :
    store.replaceAll (name :: names) =
      (((store.replace name).1.replaceAll names).1,
        (store.replace name).2 || ((store.replace name).1.replaceAll names).2) := rfl

theorem HasRoomApart.mono {fewer : List Text} (room : HasRoomApart store names)
    (within : fewer ⊆ names) : HasRoomApart store fewer :=
  fun before name location text front member =>
    room before name location text (List.Subset.trans front within) (within member)

end ReplaceAll

end Store

namespace Command

variable {habits : Habits} {arguments : Arguments} {line names : List Text} {world last : World}

/-- A command line asks for the files of these names to be converted in place. -/
def Replaces (habits : Habits) (line names : List Text) : Prop :=
  ∃ arguments, Arguments.ofTexts habits line = .ok arguments ∧ arguments.examples = false ∧
    arguments.sources = names.map .file ∧ arguments.output = none ∧ arguments.inPlace = true

section Turns

theorem Turn.replace_eq {name : Text} {fate : Fate} (inPlace : arguments.inPlace = true)
    (turn : Turn arguments (.file name) world fate last) :
    world.store.replace name = (last.store, fate.isFailure) := by
  have held : (world.readText (.file name)).1.toOption = world.store.text? name :=
    World.toOption_readText_file world name
  obtain ⟨rfl, ⟨fault, read, rfl⟩ | ⟨toOutput, _⟩⟩ | ⟨text, fault, read, written, rfl⟩ :=
    turn.file_cases
  · rw [read] at held
    exact Store.replace_of_unreadable held.symm
  · exact absurd inPlace (by simp [toOutput])
  · rw [read] at held
    rw [Store.replace_of_write held.symm (World.write_of_writeText written)]
    cases fault <;> rfl

/-- The files of a run in place are replaced one after another. -/
theorem Turns.replaceAll_eq {accounts : List Account} (inPlace : arguments.inPlace = true)
    (turns : Turns arguments world accounts last)
    (named : accounts.map Account.source = names.map .file) :
    world.store.replaceAll names =
      (last.store, accounts.any fun account => account.fate.isFailure) := by
  induction turns generalizing names with
  | nil =>
      obtain rfl := List.map_eq_nil_iff.mp named.symm
      rfl
  | cons turn _ ih =>
      rw [List.map_cons] at named
      obtain ⟨name, others, rfl, first, rest⟩ := List.map_eq_cons_iff.mp named.symm
      rw [← first] at turn
      rw [Store.replaceAll_cons, turn.replace_eq inPlace, ih rest.symm]
      rfl

theorem Progress.behind_of_inPlace (inPlace : arguments.inPlace = true) (world : World)
    (names : List Text) :
    (Progress.behind arguments world (names.map .file)).world.store =
        (world.store.replaceAll names).1 ∧
      ((Progress.behind arguments world (names.map .file)).failures = 0 ↔
        (world.store.replaceAll names).2 = false) := by
  obtain ⟨accounts, named, turns, _, _, failures⟩ :=
    exists_accounts arguments world (names.map .file)
  rw [turns.replaceAll_eq inPlace named, failures, Account.failures, List.countP_eq_zero]
  simp

end Turns

namespace Replaces

/-- A line that names no file asks for the standard input to be converted in place, which is
refused.  Any other line has its files replaced one after another, and its run fails if something
goes wrong with one of them. -/
theorem run_eq (replaces : Replaces habits line names) (world : World) :
    (run habits line world).store = (world.store.replaceAll names).1 ∧
      (run habits line world).exit =
        if names = [] then 2 else if (world.store.replaceAll names).2 then 1 else 0 := by
  obtain ⟨arguments, parsed, toConvert, named, noOutput, inPlace⟩ := replaces
  by_cases empty : names = []
  · subst empty
    have clash : arguments.Clashes := by
      refine ⟨inPlace, .inr ?_⟩
      rw [Arguments.sourcesOrStdin, named]
      decide
    exact ⟨(run_of_clashes parsed toConvert clash world).1,
      exit_of_clashes parsed toConvert clash world⟩
  · have sources : arguments.sourcesOrStdin = names.map .file := by
      rw [Arguments.sourcesOrStdin, named]
      simp [empty]
    have starts : Starts habits line arguments := by
      refine ⟨parsed, toConvert, ?_⟩
      rintro ⟨_, output | stdin⟩
      · simp [noOutput] at output
      · simp [sources] at stdin
    obtain ⟨store, failures⟩ := Progress.behind_of_inPlace inPlace world names
    rw [starts.run_eq, sources, Progress.finish_of_inPlace inPlace, Progress.store_conclude,
      Progress.exit_conclude, store, if_neg empty]
    refine ⟨rfl, ?_⟩
    cases failed : (world.store.replaceAll names).2 with
    | false => rw [if_pos (failures.mpr failed)]; rfl
    | true => rw [if_neg fun none => by simp [failures.mp none] at failed]; rfl

end Replaces

/-- Where there is room for one line end only, the first file gets it. -/
example :
    let noSpace : SystemError := ⟨28, "No space left on device", false⟩
    let store : Store := ⟨[(⟨["a.md"]⟩, .file (Utf8.encode "x")),
      (⟨["b.md"]⟩, .file (Utf8.encode "y"))], ⟨[]⟩, Device.bounded 3 noSpace⟩
    let outcome := run ⟨false, true, true⟩ ["a.md", "b.md", "--in-place"] ⟨store, [], .strict⟩
    let reordered := run ⟨false, true, true⟩ ["b.md", "a.md", "--in-place"] ⟨store, [], .strict⟩
    outcome.store.find? ⟨["a.md"]⟩ = some (.file (Utf8.encode "x\n")) ∧
      reordered.store.find? ⟨["a.md"]⟩ = some (.file (Utf8.encode "x")) := by
  decide +kernel

end Command
end DollarMath
