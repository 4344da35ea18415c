import DollarMath.Proofs.Frame

/-!
# Failed writes

A file is emptied when it is opened to be written.  So a write that cannot open its file loses
nothing, and one that breaks off behind that loses what the file held; in both cases every other
file is as it was.
-/

namespace DollarMath

/-- No byte gets into a file on this device. -/
def Device.IsFull (device : Device) : Prop :=
  ∀ entries location content, content ≠ [] →
    ∃ error, device.cut entries location content = some (0, error)

theorem Device.isFull_full (error : SystemError) : (Device.full error).IsFull := by
  intro entries location content some
  exact ⟨error, if_neg some⟩

namespace Store

variable {store earlier later : Store} {path : Path} {content : Bytes} {location : Location}

/-- What a write that goes wrong makes of a store. -/
structure FailedWrite (path : Path) (content : Bytes) (fault : AccessFault)
    (earlier later : Store) : Prop where
  /-- If the file could not be opened, nothing has changed. -/
  unopened : (∀ error, fault ≠ .broken error) → later = earlier
  /-- If the writing broke off behind that, the file holds a beginning of the content, and nothing
  else has changed. -/
  opened : ∀ error, fault = .broken error →
    ∃ location kept, earlier.locate path = .ok location ∧
      later = earlier.put location (.file (content.take kept))
  /-- On a full device that beginning is empty. -/
  full : earlier.device.IsFull → ∀ error, fault = .broken error →
    ∀ location, earlier.locate path = .ok location → later.find? location = some (.file [])

theorem take_of_isFull (full : store.device.IsFull) {kept : Nat} {error : SystemError}
    (short : store.cut location content = some (kept, error)) : content.take kept = [] := by
  by_cases some : content = []
  · rw [some, List.take_nil]
  · obtain ⟨other, same⟩ := full (store.put location (.file [])).entries location content some
    obtain ⟨rfl, _⟩ := Prod.mk.inj (Option.some.inj (short.symm.trans same))
    exact List.take_zero

theorem eq_nil_of_isFull (full : store.device.IsFull)
    (room : store.cut location content = none) : content = [] := by
  by_contra some
  obtain ⟨error, same⟩ := full (store.put location (.file [])).entries location content some
  cases room.symm.trans same

theorem Writes.failedWrite {fault : AccessFault}
    (writes : Writes earlier path content later (some fault)) :
    FailedWrite path content fault earlier later := by
  cases writes with
  | unopened closed =>
      refine ⟨fun _ => rfl, fun error same => absurd same (closed error), ?_⟩
      exact fun _ error same => absurd same (closed error)
  | @broken place kept error located apart _ short =>
      refine ⟨fun closed => absurd rfl (closed error), fun _ _ => ⟨place, kept, located, rfl⟩, ?_⟩
      intro full _ _ location reached
      obtain rfl := Except.ok.inj (located.symm.trans reached)
      rw [take_of_isFull full short]
      exact find?_put_self earlier _ (names_ne_nil apart)

/-- An empty file put somewhere leaves an empty file as it is. -/
theorem find?_put_empty {place : Location} (apart : store.find? place ≠ some .directory)
    (empty : store.find? location = some (.file [])) :
    (store.put place (.file [])).find? location = some (.file []) := by
  by_cases same : location = place
  · subst same
    exact find?_put_self store _ (names_ne_nil apart)
  · rw [find?_put_of_ne store _ same, empty]

/-- An empty file stays empty on a full device. -/
theorem Writes.find?_of_empty {fault : Option AccessFault} (full : store.device.IsFull)
    (writes : Writes store path content later fault)
    (empty : store.find? location = some (.file [])) :
    later.find? location = some (.file []) := by
  cases writes with
  | unopened _ => exact empty
  | broken _ apart _ short =>
      rw [take_of_isFull full short]
      exact find?_put_empty apart empty
  | whole _ apart _ room =>
      rw [eq_nil_of_isFull full room]
      exact find?_put_empty apart empty

end Store

namespace Command

variable {arguments : Arguments} {world last : World} {location : Location}

/-- An empty file stays empty in all turns of files on a full device. -/
theorem Turns.find?_of_empty {accounts : List Account}
    (turns : Turns arguments world accounts last)
    (files : .stdin ∉ accounts.map Account.source) (full : world.store.device.IsFull)
    (empty : world.store.find? location = some (.file [])) :
    last.store.find? location = some (.file []) := by
  let Keeps (later : World) : Prop :=
    later.store.device.IsFull ∧ later.store.find? location = some (.file [])
  have kept : Keeps last := by
    refine turns.keeps Keeps files ⟨full, empty⟩ ?_
    rintro name fate earlier later _ turn ⟨stillFull, stillEmpty⟩
    refine ⟨by rwa [turn.rewritten.device], ?_⟩
    obtain same | ⟨_, _, _, _, _, writes, _⟩ := turn.store_cases
    · rw [same, stillEmpty]
    · exact writes.find?_of_empty stillFull stillEmpty
  exact kept.2

namespace Progress

/-- A source that a run in place could not write has been read, and is as the failed write left
it. -/
theorem writes_of_said {before : List Source} {name : Text} {fault : AccessFault}
    (unwritable : .unwritable name fault ∈ said arguments world before (.file name)) :
    ∃ text, ((behind arguments world before).world.readText (.file name)).1 = .ok text ∧
      (behind arguments world before).world.store.Writes (Path.ofText name)
        (Utf8.encode (Text.closeLine (convert text)))
        (behind arguments world (before ++ [.file name])).world.store (some fault) := by
  obtain ⟨fate, turn, said⟩ := exists_turn_behind arguments world before (.file name)
  rw [said] at unwritable
  have verdict := Fate.verdict?_of_mem unwritable rfl
  cases fate with
  | unread other => cases verdict
  | replaced report => cases verdict
  | kept report => cases verdict
  | unwritten report other =>
      cases verdict
      obtain ⟨text, read, writes⟩ := turn.writes_of_unwritten
      exact ⟨text, congrArg Prod.fst read, writes⟩

theorem device_behind {sources : List Source} (files : .stdin ∉ sources) :
    (behind arguments world sources).world.store.device = world.store.device :=
  (rewritten_behind files arguments world).device

/-- A file that is empty when some files have had their turns on a full device is empty behind the
others. -/
theorem find?_behind_append_of_empty {before after : List Source}
    (files : .stdin ∉ before ++ after) (full : world.store.device.IsFull)
    (empty : (behind arguments world before).world.store.find? location = some (.file [])) :
    (behind arguments world (before ++ after)).world.store.find? location = some (.file []) := by
  have front : .stdin ∉ before := fun member => files (List.mem_append_left _ member)
  have stillFull : (behind arguments world before).world.store.device.IsFull := by
    rwa [device_behind front]
  obtain ⟨accounts, rfl, whole⟩ :=
    exists_goesOnAll arguments (behind arguments world before) after
  rw [behind_append]
  exact whole.turns.find?_of_empty (fun member => files (List.mem_append_right _ member)) stillFull
    empty

end Progress

/-- A run that could not write its output leaves behind what the failed write made of the files. -/
theorem Starts.failedWrite_output {habits : Habits} {line : List Text}
    (starts : Starts habits line arguments) (toOutput : arguments.inPlace = false) {output : Text}
    (saved : arguments.output = some output) {fault : AccessFault} :
    let behind := Progress.behind arguments world arguments.sourcesOrStdin
    (behind.world.writeText output behind.joined).2 = some fault →
      Store.FailedWrite (Path.ofText output) (Utf8.encode (Text.closeLine behind.joined)) fault
        world.store (run habits line world).store := by
  intro behind failed
  have store := Progress.store_behind_of_toOutput toOutput world arguments.sourcesOrStdin
  rcases written : behind.world.writeText output behind.joined with ⟨later, other⟩
  rw [written] at failed
  obtain rfl : other = some fault := failed
  have writes := World.writes_of_writeText written
  rw [store] at writes
  rw [starts.run_eq, Progress.finish_of_unwritable toOutput saved written]
  exact writes.failedWrite

/-- A failed write loses at most what its own file held.  A source that a run in place could not
write holds what it held before that write if it could not be opened; if the writing broke off
behind that, it holds a beginning of its converted text.  No other file changes in such a turn, and
what the file holds then it holds in the end, unless it is a source again; on a full device it is
empty in the end in any case.  In the same way a run that could not write its output leaves all
files as they were, but for an output file that was opened, which holds a beginning of the output,
and is empty on a full device. -/
theorem failed_writes_empty_at_most_their_file {habits : Habits} {line : List Text}
    (starts : Starts habits line arguments) (world : World) :
    (arguments.inPlace = true → ∀ (before after : List Source) (name : Text) (fault : AccessFault),
      arguments.sourcesOrStdin = before ++ .file name :: after →
      .unwritable name fault ∈ Progress.said arguments world before (.file name) →
        let earlier := (Progress.behind arguments world before).world
        let later := (Progress.behind arguments world (before ++ [.file name])).world
        (∃ text, (earlier.readText (.file name)).1 = .ok text ∧
          Store.FailedWrite (Path.ofText name) (Utf8.encode (Text.closeLine (convert text))) fault
            earlier.store later.store) ∧
        ∀ location, earlier.store.locate (Path.ofText name) = .ok location →
          (location ∉ places world.store after →
            (run habits line world).store.find? location = later.store.find? location) ∧
          (world.store.device.IsFull → ∀ error, fault = .broken error →
            (run habits line world).store.find? location = some (.file []))) ∧
    (arguments.inPlace = false → ∀ (output : Text) (fault : AccessFault),
      arguments.output = some output →
        let behind := Progress.behind arguments world arguments.sourcesOrStdin
        (behind.world.writeText output behind.joined).2 = some fault →
          Store.FailedWrite (Path.ofText output) (Utf8.encode (Text.closeLine behind.joined)) fault
            world.store (run habits line world).store) := by
  refine ⟨fun inPlace before after name fault split unwritable => ?_,
    fun toOutput output fault saved => starts.failedWrite_output toOutput saved⟩
  intro earlier later
  obtain ⟨text, read, writes⟩ := Progress.writes_of_said unwritable
  have fails := writes.failedWrite
  have files := starts.stdin_not_mem inPlace
  rw [List.append_cons] at split
  rw [split] at files
  have front : .stdin ∉ before := fun member => files (by simp [member])
  refine ⟨⟨text, read, fails⟩, fun location located => ?_⟩
  rw [(starts.run_of_inPlace inPlace world).2, split]
  constructor
  · intro elsewhere
    exact (Progress.rewritten_behind_append files arguments world).find?_of_not_mem elsewhere
  · intro full error broken
    have fullThen : earlier.store.device.IsFull := by
      rwa [Progress.device_behind front]
    exact Progress.find?_behind_append_of_empty files full
      (fails.full fullThen error broken location located)

/-- On a full device one file that is converted in place is emptied, and one that may not be opened
is kept; the same happens to them as outputs. -/
theorem failed_writes_empty_at_most_their_file_of_full :
    let habits : Habits := ⟨false, true, true⟩
    let denied : SystemError := ⟨13, "Permission denied", true⟩
    let noSpace : SystemError := ⟨28, "No space left on device", false⟩
    let device : Device := { Device.full noSpace with
      write := fun location => if location = ⟨["b.md"]⟩ then some denied else none }
    let store : Store := ⟨[(⟨["a.md"]⟩, .file (Utf8.encode "\\(x\\)")),
      (⟨["b.md"]⟩, .file (Utf8.encode "\\(y\\)"))], ⟨[]⟩, device⟩
    let world : World := ⟨store, [], .strict⟩
    let replacing := run habits ["a.md", "b.md", "--in-place"] world
    let emptying := run habits ["b.md", "-o", "a.md"] world
    let keeping := run habits ["a.md", "-o", "b.md"] world
    device.IsFull ∧
      replacing.store.find? ⟨["a.md"]⟩ = some (.file []) ∧
      replacing.store.find? ⟨["b.md"]⟩ = some (.file (Utf8.encode "\\(y\\)")) ∧
      emptying.store.find? ⟨["a.md"]⟩ = some (.file []) ∧
      keeping.store = store := by
  intro habits denied noSpace device store world replacing emptying keeping
  have full : device.IsFull := Device.isFull_full noSpace
  have inPlace : Starts habits ["a.md", "b.md", "--in-place"]
      ⟨[.file "a.md", .file "b.md"], none, true, false, false, false⟩ := ⟨by decide, rfl, by decide⟩
  have emptied := (failed_writes_empty_at_most_their_file inPlace world).1 rfl [] [.file "b.md"]
    "a.md" (.broken noSpace) rfl (by decide +kernel)
  have kept := (failed_writes_empty_at_most_their_file inPlace world).1 rfl [.file "a.md"] []
    "b.md" (.refused denied) rfl (by decide +kernel)
  refine ⟨full, (emptied.2 ⟨["a.md"]⟩ rfl).2 full noSpace rfl, ?_, ?_, ?_⟩
  · obtain ⟨⟨text, _, fails⟩, rest⟩ := kept
    have alone : (⟨["b.md"]⟩ : Location) ∉ places store [] := by
      rintro ⟨_, member, _⟩
      cases member
    rw [(rest ⟨["b.md"]⟩ (by decide +kernel)).1 alone, fails.unopened (by simp)]
    decide +kernel
  · have starts : Starts habits ["b.md", "-o", "a.md"]
        ⟨[.file "b.md"], some "a.md", false, false, false, false⟩ := ⟨by decide, rfl, by decide⟩
    exact ((failed_writes_empty_at_most_their_file starts world).2 rfl _ (.broken noSpace) rfl
      (by decide +kernel)).full full noSpace rfl _ rfl
  · have starts : Starts habits ["a.md", "-o", "b.md"]
        ⟨[.file "a.md"], some "b.md", false, false, false, false⟩ := ⟨by decide, rfl, by decide⟩
    exact ((failed_writes_empty_at_most_their_file starts world).2 rfl _ (.refused denied) rfl
      (by decide +kernel)).unopened (by simp)

/-- A text is lost when the file that holds it is converted in place where there is no room. -/
theorem text_lost_by_failed_write :
    let habits : Habits := ⟨true, false, false⟩
    let store : Store := ⟨[(⟨["a.md"]⟩, .file (Utf8.encode "\\(x\\)"))], ⟨[]⟩,
      .full ⟨27, "File too large", false⟩⟩
    let outcome := run habits ["--in-place", "a.md"] ⟨store, [], .strict⟩
    outcome.log = [⟨.error, "Could not write a.md: [Errno 27] File too large"⟩,
        ⟨.error, "1 source(s) failed"⟩] ∧
      store.read (Path.ofText "a.md") = .ok (Utf8.encode "\\(x\\)") ∧
      outcome.store.read (Path.ofText "a.md") = .ok [] := by
  decide +kernel

end Command
end DollarMath
