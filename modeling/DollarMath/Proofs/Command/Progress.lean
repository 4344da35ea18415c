import DollarMath.Proofs.Command.Turn

/-!
# A run over its sources

A run that does not replace its sources leaves the files alone while it reads: what it has for its
output and how many sources failed are told by the sources alone.  A run that replaces its sources
reads files that it may have written before, but writes only where it has just read a text.  So the
paths lead where they led, and a file that cannot be read stays as it is.
-/

namespace DollarMath
namespace Command

variable {arguments : Arguments} {world last : World} {accounts : List Account}

section ToOutput

/-- The texts that are read for the output are converted, and the sources that cannot be read are
counted. -/
theorem Turns.of_toOutput (toOutput : arguments.inPlace = false)
    (utf8 : world.ReadsUtf8 (accounts.map Account.source))
    (turns : Turns arguments world accounts last) :
    accounts.filterMap Account.chunk? =
        (world.texts (accounts.map Account.source)).map convert ∧
      Account.failures accounts =
        (world.readings (accounts.map Account.source)).countP Option.isNone := by
  induction turns with
  | nil => exact ⟨rfl, rfl⟩
  | @cons account accounts world between last turn _ ih =>
      rw [List.map_cons] at utf8
      have later := utf8.tail
      rw [List.map_cons, World.texts_cons utf8, World.readings_cons utf8, List.map_append,
        List.countP_cons, List.filterMap_cons, Account.failures, List.countP_cons,
        ← Account.failures]
      obtain ⟨source, fate⟩ := account
      cases turn with
      | unread read =>
          rw [read] at later ⊢
          obtain ⟨chunks, failures⟩ := ih later
          rw [chunks, failures]
          exact ⟨rfl, rfl⟩
      | kept _ read =>
          rw [read] at later ⊢
          obtain ⟨chunks, failures⟩ := ih later
          rw [chunks, failures]
          simp only [Account.chunk?, Fate.chunk?, Report.content_eq_convert]
          exact ⟨rfl, rfl⟩
      | unwritten inPlace _ _ => exact absurd inPlace (by simp [toOutput])
      | replaced inPlace _ _ => exact absurd inPlace (by simp [toOutput])

namespace Progress

theorem store_behind_of_toOutput (toOutput : arguments.inPlace = false) (world : World)
    (sources : List Source) : (behind arguments world sources).world.store = world.store := by
  obtain ⟨_, _, turns, _⟩ := exists_accounts arguments world sources
  exact turns.store_of_toOutput toOutput

theorem behind_of_toOutput {sources : List Source} (toOutput : arguments.inPlace = false)
    (utf8 : world.ReadsUtf8 sources) :
    (behind arguments world sources).outputs = (world.texts sources).map convert ∧
      (behind arguments world sources).failures =
        (world.readings sources).countP Option.isNone := by
  obtain ⟨accounts, named, turns, _, outputs, failures⟩ :=
    exists_accounts arguments world sources
  rw [← named] at utf8 ⊢
  rw [named, outputs, failures, ← named]
  exact turns.of_toOutput toOutput utf8

end Progress
end ToOutput

section InPlace

variable {sources : List Source} {location : Location}

/-- The places that the files among some sources lead to. -/
def places (store : Store) (sources : List Source) : Set Location :=
  {location | ∃ name, .file name ∈ sources ∧ store.locate (Path.ofText name) = .ok location}

/-- A turn changes the content of the file that its source names at most. -/
theorem Turn.rewritten {name : Text} {fate : Fate}
    (turn : Turn arguments (.file name) world fate last) :
    Store.Rewritten (places world.store [.file name]) world.store last.store := by
  obtain same | ⟨location, text, fault, located, readable, writes, _⟩ := turn.store_cases
  · rw [same]
    exact .refl _ _
  · refine (writes.rewritten located readable.holdsFile).mono ?_
    rintro _ rfl
    exact ⟨name, List.mem_singleton_self _, located⟩

/-- A turn leaves alone what is no readable text. -/
theorem Turn.find?_of_not_isReadable {name : Text} {fate : Fate}
    (turn : Turn arguments (.file name) world fate last)
    (unreadable : ¬ world.store.IsReadable location) :
    last.store.find? location = world.store.find? location := by
  obtain same | ⟨place, text, fault, located, readable, writes, _⟩ := turn.store_cases
  · rw [same]
  · refine writes.find?_of_ne fun here => unreadable ?_
    obtain rfl := Except.ok.inj (located.symm.trans here)
    exact readable

/-- Behind a row of files, files have other contents at most in the places that they led to at the
start. -/
theorem Turns.rewritten (turns : Turns arguments world accounts last)
    (files : .stdin ∉ accounts.map Account.source) :
    Store.Rewritten (places world.store (accounts.map Account.source)) world.store
      last.store := by
  refine turns.keeps (fun later => Store.Rewritten _ world.store later.store) files (.refl _ _) ?_
  intro name fate earlier later member turn sofar
  refine sofar.trans (turn.rewritten.mono ?_)
  rintro location ⟨other, single, located⟩
  have same := List.mem_singleton.mp single
  exact ⟨other, same ▸ member, sofar.locate_eq_ok_iff.mp located⟩

/-- What is no readable text is left alone by all turns of files. -/
theorem Turns.find?_of_not_isReadable (turns : Turns arguments world accounts last)
    (files : .stdin ∉ accounts.map Account.source)
    (unreadable : ¬ world.store.IsReadable location) :
    last.store.find? location = world.store.find? location := by
  let Keeps (later : World) : Prop := ¬ later.store.IsReadable location ∧
    later.store.find? location = world.store.find? location
  have kept : Keeps last := by
    refine turns.keeps Keeps files ⟨unreadable, rfl⟩ ?_
    rintro name fate earlier later _ turn ⟨still, sofar⟩
    have same := turn.find?_of_not_isReadable still
    exact ⟨by rwa [Store.isReadable_congr turn.rewritten.device same], same.trans sofar⟩
  exact kept.2

namespace Progress

theorem rewritten_behind (named : .stdin ∉ sources) (arguments : Arguments) (world : World) :
    Store.Rewritten (places world.store sources) world.store
      (behind arguments world sources).world.store := by
  obtain ⟨accounts, rfl, turns, _⟩ := exists_accounts arguments world sources
  exact turns.rewritten named

theorem rewritten_behind_append {before after : List Source} (named : .stdin ∉ before ++ after)
    (arguments : Arguments) (world : World) :
    Store.Rewritten (places world.store after) (behind arguments world before).world.store
      (behind arguments world (before ++ after)).world.store := by
  have first : Store.Rewritten _ world.store (behind arguments world before).world.store :=
    rewritten_behind (fun member => named (List.mem_append_left _ member)) arguments world
  obtain ⟨accounts, rfl, whole⟩ :=
    exists_goesOnAll arguments (behind arguments world before) after
  rw [behind_append]
  refine (whole.turns.rewritten fun member => named (List.mem_append_right _ member)).mono ?_
  rintro location ⟨name, member, located⟩
  exact ⟨name, member, first.locate_eq_ok_iff.mp located⟩

theorem find?_behind_append_of_not_isReadable {before after : List Source}
    (named : .stdin ∉ after)
    (unreadable : ¬ (behind arguments world before).world.store.IsReadable location) :
    (behind arguments world (before ++ after)).world.store.find? location =
      (behind arguments world before).world.store.find? location := by
  obtain ⟨accounts, rfl, whole⟩ :=
    exists_goesOnAll arguments (behind arguments world before) after
  rw [behind_append]
  exact whole.turns.find?_of_not_isReadable named unreadable

end Progress
end InPlace

namespace Progress

section Said

/-- What a run says about a source that follows others. -/
def said (arguments : Arguments) (world : World) (before : List Source) (source : Source) :
    List Notice :=
  (behind arguments world (before ++ [source])).notices.drop
    (behind arguments world before).notices.length

/-- A source that follows others has its turn in the world behind them, and its fate is what is
said about it. -/
theorem exists_turn_behind (arguments : Arguments) (world : World) (before : List Source)
    (source : Source) :
    ∃ fate, Turn arguments source (behind arguments world before).world fate
        (behind arguments world (before ++ [source])).world ∧
      said arguments world before source = fate.notices arguments source := by
  obtain ⟨fate, next⟩ := exists_goesOn arguments (behind arguments world before) source
  have whole : behind arguments world (before ++ [source]) =
      step arguments (behind arguments world before) source :=
    behind_append arguments world before [source]
  refine ⟨fate, by rw [whole]; exact next.turn, ?_⟩
  rw [said, whole, next.notices, List.drop_left]

end Said

section Finish

variable {progress : Progress} {output : Text}

theorem exit_conclude (progress : Progress) (arguments : Arguments) (stdout : Text) :
    (progress.conclude arguments stdout).exit = if progress.failures = 0 then 0 else 1 := by
  rw [conclude]
  split <;> rfl

theorem store_conclude (progress : Progress) (arguments : Arguments) (stdout : Text) :
    (progress.conclude arguments stdout).store = progress.world.store := by
  rw [conclude]
  split <;> rfl

theorem stdout_conclude (progress : Progress) (arguments : Arguments) (stdout : Text) :
    (progress.conclude arguments stdout).stdout = stdout := by
  rw [conclude]
  split <;> rfl

theorem complaint_conclude (progress : Progress) (arguments : Arguments) (stdout : Text) :
    (progress.conclude arguments stdout).complaint = [] := by
  rw [conclude]
  split <;> rfl

theorem finish_of_inPlace (inPlace : arguments.inPlace = true) (progress : Progress) :
    progress.finish arguments = progress.conclude arguments [] :=
  if_pos inPlace

theorem finish_of_stdout (toOutput : arguments.inPlace = false) (stdout : arguments.output = none)
    (progress : Progress) :
    progress.finish arguments =
      progress.conclude arguments (Text.closeLine progress.joined) := by
  rw [finish, if_neg (by simp [toOutput]), stdout]

theorem finish_of_unwritable (toOutput : arguments.inPlace = false)
    (saved : arguments.output = some output) {behind : World} {fault : AccessFault}
    (written : progress.world.writeText output progress.joined = (behind, some fault)) :
    progress.finish arguments =
      ({ progress with world := behind }.say [.unwritable output fault]).close arguments 1 [] := by
  rw [finish, if_neg (by simp [toOutput]), saved]
  simp only [written]

theorem finish_of_saved (toOutput : arguments.inPlace = false)
    (saved : arguments.output = some output) {behind : World}
    (written : progress.world.writeText output progress.joined = (behind, none)) :
    progress.finish arguments =
      ({ progress with world := behind }.say [.saved output]).conclude arguments [] := by
  rw [finish, if_neg (by simp [toOutput]), saved]
  simp only [written]

theorem store_finish_of_output (toOutput : arguments.inPlace = false)
    (saved : arguments.output = some output) (progress : Progress) :
    (progress.finish arguments).store =
      (progress.world.writeText output progress.joined).1.store := by
  rcases written : progress.world.writeText output progress.joined with ⟨behind, _ | fault⟩
  · rw [finish_of_saved toOutput saved written, store_conclude]
    rfl
  · rw [finish_of_unwritable toOutput saved written]
    rfl

/-- A run comes to its end without an output file, or has written it, or could not write it. -/
theorem finish_cases (clear : arguments.inPlace = true → arguments.output = none)
    (progress : Progress) :
    (∃ stdout, arguments.output = none ∧
        progress.finish arguments = progress.conclude arguments stdout) ∨
      (∃ output last, arguments.output = some output ∧
        progress.world.writeText output progress.joined = (last, none) ∧
        progress.finish arguments =
          ({ progress with world := last }.say [.saved output]).conclude arguments []) ∨
      ∃ output last fault, arguments.output = some output ∧
        progress.world.writeText output progress.joined = (last, some fault) ∧
        progress.finish arguments =
          ({ progress with world := last }.say [.unwritable output fault]).close arguments 1 [] := by
  cases inPlace : arguments.inPlace with
  | true => exact .inl ⟨[], clear inPlace, finish_of_inPlace inPlace progress⟩
  | false =>
      rcases named : arguments.output with _ | output
      · exact .inl ⟨_, rfl, finish_of_stdout inPlace named progress⟩
      · rcases written : progress.world.writeText output progress.joined with ⟨last, _ | fault⟩
        · exact .inr (.inl ⟨output, last, rfl, written, finish_of_saved inPlace named written⟩)
        · exact .inr (.inr ⟨output, last, fault, rfl, written,
            finish_of_unwritable inPlace named written⟩)

end Finish

end Progress
end Command
end DollarMath
