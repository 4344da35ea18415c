import DollarMath.Proofs.Command.Account
import DollarMath.Proofs.Command.Line

/-!
# What a run may change

A run that does not convert leaves every file as it is.  A run in place changes no file but its
sources, and of these none that it could not read; every other run changes no file but its output.
-/

namespace DollarMath
namespace Command

variable {arguments : Arguments} {world : World} {location : Location}

section BrokenOff

/-- In the turn of one of these sources the system broke off the writing to the file at this
place. -/
def BrokenOff (arguments : Arguments) (world : World) (sources : List Source)
    (location : Location) : Prop :=
  ∃ before name after error, sources = before ++ .file name :: after ∧
    (Progress.behind arguments world before).world.store.locate (Path.ofText name) =
      .ok location ∧
    .unwritable name (.broken error) ∈ Progress.said arguments world before (.file name)

theorem BrokenOff.append {sources : List Source}
    (broken : BrokenOff arguments world sources location) (more : List Source) :
    BrokenOff arguments world (sources ++ more) location := by
  obtain ⟨before, name, after, error, rfl, located, said⟩ := broken
  exact ⟨before, name, after ++ more, error, by simp, located, said⟩

theorem not_brokenOff_nil (location : Location) : ¬ BrokenOff arguments world [] location := by
  rintro ⟨before, name, after, error, split, _⟩
  simp at split

/-- Behind some files each file is as it was at the start, or it has been replaced and is a readable
text, unless the writing to it was broken off. -/
theorem find?_behind_cases {sources : List Source} (named : .stdin ∉ sources)
    (location : Location) :
    let later := (Progress.behind arguments world sources).world.store
    later.find? location = world.store.find? location ∨ later.IsReadable location ∨
      BrokenOff arguments world sources location := by
  induction sources using List.reverseRecOn with
  | nil => exact .inl rfl
  | append_singleton sources source ih =>
      have before := ih fun member => named (List.mem_append_left _ member)
      cases source with
      | stdin => exact absurd (List.mem_append_right _ (List.mem_singleton_self _)) named
      | file name =>
          obtain ⟨fate, turn, said⟩ :=
            Progress.exists_turn_behind arguments world sources (.file name)
          set earlier := (Progress.behind arguments world sources).world
          set later := (Progress.behind arguments world (sources ++ [.file name])).world
          have kept : later.store.find? location = earlier.store.find? location →
              later.store.find? location = world.store.find? location ∨
                later.store.IsReadable location ∨
                BrokenOff arguments world (sources ++ [.file name]) location := by
            intro same
            rw [same, Store.isReadable_congr turn.rewritten.device same]
            exact before.imp_right (Or.imp_right fun broken => broken.append [.file name])
          obtain untouched | ⟨place, text, fault, located, readable, writes, verdict⟩ :=
            turn.store_cases
          · exact kept (by rw [untouched])
          · by_cases here : location = place
            · subst here
              obtain untouched | ⟨error, rfl⟩ | whole := writes.found located
              · exact kept (by rw [untouched])
              · obtain ⟨report, rfl⟩ := verdict error rfl
                refine .inr (.inr ⟨sources, name, [], error, rfl, located, ?_⟩)
                rw [said]
                exact List.mem_append_right _ (List.mem_singleton_self _)
              · have granted : later.store.device.read location = none := by
                  rw [turn.rewritten.device]
                  exact readable.1
                exact .inr (.inl ⟨granted, _, text, whole, Utf8.decode_encode text⟩)
            · exact kept (writes.find?_of_ne fun reached => here
                (Except.ok.inj (reached.symm.trans located)))

end BrokenOff

namespace Starts

variable {habits : Habits} {line : List Text}

theorem stdin_not_mem (starts : Starts habits line arguments)
    (inPlace : arguments.inPlace = true) : .stdin ∉ arguments.sourcesOrStdin :=
  fun member => starts.clear ⟨inPlace, .inr member⟩

theorem run_of_inPlace (starts : Starts habits line arguments)
    (inPlace : arguments.inPlace = true) (world : World) :
    (run habits line world).stdout = [] ∧
      (run habits line world).store =
        (Progress.behind arguments world arguments.sourcesOrStdin).world.store := by
  rw [starts.run_eq, Progress.finish_of_inPlace inPlace, Progress.store_conclude,
    Progress.stdout_conclude]
  exact ⟨rfl, rfl⟩

theorem find?_of_not_source (starts : Starts habits line arguments)
    (inPlace : arguments.inPlace = true)
    (elsewhere : location ∉ places world.store arguments.sourcesOrStdin) :
    (run habits line world).store.find? location = world.store.find? location := by
  rw [(starts.run_of_inPlace inPlace world).2]
  exact (Progress.rewritten_behind (starts.stdin_not_mem inPlace) arguments world).find?_of_not_mem
    elsewhere

/-- A file that cannot be read when its turn comes is as it was then, and as it was at the start
unless the writing to it was broken off before. -/
theorem find?_of_unread (starts : Starts habits line arguments)
    (inPlace : arguments.inPlace = true) {before after : List Source} {name : Text}
    {fault : ReadFault} (split : arguments.sourcesOrStdin = before ++ .file name :: after)
    (unread : ((Progress.behind arguments world before).world.readText (.file name)).1 =
      .error fault)
    (located : world.store.locate (Path.ofText name) = .ok location) :
    (run habits line world).store.find? location =
        (Progress.behind arguments world before).world.store.find? location ∧
      (¬ BrokenOff arguments world before location →
        (run habits line world).store.find? location = world.store.find? location) := by
  have named := starts.stdin_not_mem inPlace
  rw [split] at named
  have namedBefore : .stdin ∉ before := fun member => named (List.mem_append_left _ member)
  have reached := (Progress.rewritten_behind namedBefore arguments world).locate_eq_ok_iff.mpr
    located
  have unreadable :
      ¬ (Progress.behind arguments world before).world.store.IsReadable location := by
    intro readable
    obtain ⟨text, read⟩ := World.exists_readText_file_iff.mpr ⟨location, reached, readable⟩
    cases unread.symm.trans read
  have kept : (run habits line world).store.find? location =
      (Progress.behind arguments world before).world.store.find? location := by
    rw [(starts.run_of_inPlace inPlace world).2, split]
    exact Progress.find?_behind_append_of_not_isReadable
      (fun member => named (List.mem_append_right _ member)) unreadable
  refine ⟨kept, fun whole => ?_⟩
  obtain same | readable | broken := find?_behind_cases namedBefore location
  · rw [kept, same]
  · exact absurd readable unreadable
  · exact absurd broken whole

theorem find?_of_not_output (starts : Starts habits line arguments)
    (toOutput : arguments.inPlace = false)
    (elsewhere : ∀ output ∈ arguments.output,
      world.store.locate (Path.ofText output) ≠ .ok location) :
    (run habits line world).store.find? location = world.store.find? location := by
  have untouched :=
    Progress.store_behind_of_toOutput toOutput world arguments.sourcesOrStdin
  rw [starts.run_eq]
  rcases output : arguments.output with _ | name
  · rw [Progress.finish_of_stdout toOutput output, Progress.store_conclude, untouched]
  · rw [Progress.store_finish_of_output toOutput output]
    rcases written : World.writeText _ name _ with ⟨later, fault⟩
    have writes := World.writes_of_writeText written
    rw [untouched] at writes
    exact writes.find?_of_ne (elsewhere name output)

end Starts

/-- A run changes only what it may change, whatever the files and the standard input are and
whichever reads and writes fail.  Where the command line cannot be read, asks for help or for the
gallery, or says that the converted texts go to two places or back to the standard input, no file
changes, and unless something was asked to be shown nothing is written to the standard output.  A
run in place writes nothing to the standard output and leaves alone whatever is not among its
sources.  A source that cannot be read when its turn comes is left as it is then; that is as it was
at the start, unless the same file was a source before and the system broke off the writing to it.
Any other run leaves alone whatever is not its output. -/
theorem run_changes_only_what_it_may (habits : Habits) (line : List Text) (world : World) :
    (∀ stop, Arguments.ofTexts habits line = .error stop →
      (run habits line world).store = world.store ∧
        (stop ≠ .help → (run habits line world).stdout = [])) ∧
    ∀ arguments, Arguments.ofTexts habits line = .ok arguments →
      (arguments.examples = true → (run habits line world).store = world.store) ∧
      (arguments.examples = false → arguments.Clashes →
        (run habits line world).store = world.store ∧ (run habits line world).stdout = []) ∧
      (arguments.examples = false → arguments.inPlace = true → ¬ arguments.Clashes →
        (run habits line world).stdout = [] ∧
          (∀ location, location ∉ places world.store arguments.sourcesOrStdin →
            (run habits line world).store.find? location = world.store.find? location) ∧
          ∀ before name after fault location,
            arguments.sourcesOrStdin = before ++ .file name :: after →
            ((Progress.behind arguments world before).world.readText (.file name)).1 =
              .error fault →
            world.store.locate (Path.ofText name) = .ok location →
              (run habits line world).store.find? location =
                  (Progress.behind arguments world before).world.store.find? location ∧
                (¬ BrokenOff arguments world before location →
                  (run habits line world).store.find? location =
                    world.store.find? location)) ∧
      (arguments.examples = false → arguments.inPlace = false →
        ∀ location, (∀ output ∈ arguments.output,
            world.store.locate (Path.ofText output) ≠ .ok location) →
          (run habits line world).store.find? location = world.store.find? location) := by
  refine ⟨fun stop stopped => run_of_stop stopped world, fun arguments parsed => ⟨?_, ?_, ?_, ?_⟩⟩
  · intro shown
    rw [run_of_examples parsed shown]
  · intro toConvert clash
    exact run_of_clashes parsed toConvert clash world
  · intro toConvert inPlace clear
    have starts : Starts habits line arguments := ⟨parsed, toConvert, clear⟩
    refine ⟨(starts.run_of_inPlace inPlace world).1, ?_, ?_⟩
    · intro location elsewhere
      exact starts.find?_of_not_source inPlace elsewhere
    · intro before name after fault location split unread located
      exact starts.find?_of_unread inPlace split unread located
  · intro toConvert toOutput location elsewhere
    exact (Starts.of_toOutput parsed toConvert toOutput).find?_of_not_output toOutput elsewhere

/-- Next to a file that is converted, one that holds no text and one that may not be read are kept
where they are sources in place; where another file is the output all are kept; and lines that are
refused keep every file, among them one that gives two dashes as the output. -/
theorem run_changes_only_what_it_may_of_undecodable :
    let habits : Habits := ⟨false, true, true⟩
    let denied : Device := { Device.roomy with
      read := fun location =>
        if location = ⟨["c.md"]⟩ then some ⟨13, "Permission denied", true⟩ else none }
    let store : Store := ⟨[(⟨["a.md"]⟩, .file (Utf8.encode "\\(x\\)")),
      (⟨["b.md"]⟩, .file [0xFF]), (⟨["c.md"]⟩, .file [0x78])], ⟨[]⟩, denied⟩
    let world : World := ⟨store, [], .strict⟩
    let outcome := run habits ["--in-place", "b.md", "c.md", "a.md"] world
    (outcome.stdout = [] ∧
      outcome.store.find? ⟨["a.md"]⟩ = some (.file (Utf8.encode "$x$\n")) ∧
      outcome.store.find? ⟨["b.md"]⟩ = some (.file [0xFF]) ∧
      outcome.store.find? ⟨["c.md"]⟩ = some (.file [0x78])) ∧
    (run habits ["b.md", "-o", "d.md"] world).store.find? ⟨["b.md"]⟩ = some (.file [0xFF]) ∧
    ((run habits ["--in-place", "--output=--", "a.md"] world).store = world.store ∧
      (run habits ["--in-place", "--output=--", "a.md"] world).stdout = []) ∧
    ((run habits ["-o"] world).store = world.store ∧
      (run habits ["-o"] world).stdout = []) := by
  intro habits denied store world outcome
  refine ⟨?_, ?_, ?_, ?_⟩
  · have parsed : Arguments.ofTexts habits ["--in-place", "b.md", "c.md", "a.md"] =
        .ok ⟨[.file "b.md", .file "c.md", .file "a.md"], none, true, false, false, false⟩ := by
      decide
    obtain ⟨stdout, _, unread⟩ :=
      ((run_changes_only_what_it_may _ _ world).2 _ parsed).2.2.1 rfl rfl (by decide)
    have undecodable := unread [] "b.md" [.file "c.md", .file "a.md"]
      (.decoding ⟨0, 0xFF, 1, .invalidStart⟩) ⟨["b.md"]⟩ rfl (by decide +kernel) rfl
    have refused := unread [.file "b.md"] "c.md" [.file "a.md"]
      (.access (.refused ⟨13, "Permission denied", true⟩)) ⟨["c.md"]⟩ rfl (by decide +kernel) rfl
    refine ⟨stdout, by decide +kernel, undecodable.2 (not_brokenOff_nil _), ?_⟩
    rw [refused.1]
    decide +kernel
  · have parsed : Arguments.ofTexts habits ["b.md", "-o", "d.md"] =
        .ok ⟨[.file "b.md"], some "d.md", false, false, false, false⟩ := by decide
    exact ((run_changes_only_what_it_may _ _ world).2 _ parsed).2.2.2 rfl rfl _ (by decide)
  · have parsed : Arguments.ofTexts habits ["--in-place", "--output=--", "a.md"] =
        .ok ⟨[.file "a.md"], some "--", true, false, false, false⟩ := by decide
    exact ((run_changes_only_what_it_may _ _ world).2 _ parsed).2.1 rfl (by decide)
  · have stopped : Arguments.ofTexts habits ["-o"] = .error (.error .valueMissing) := by decide
    obtain ⟨kept, stdout⟩ := (run_changes_only_what_it_may _ _ world).1 _ stopped
    exact ⟨kept, stdout (by decide)⟩

end Command
end DollarMath
