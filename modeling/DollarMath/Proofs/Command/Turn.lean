import DollarMath.Proofs.Command.World
import DollarMath.Proofs.Conversion

/-!
# Turns of the sources

Every source of a run has its turn, in which it is read and its converted text is written back or
kept for the output.  What became of the sources, one after another, is the account of the run: it
tells what the run has said, what it has for its output and how many sources it counts as failed.
-/

namespace DollarMath
namespace Command

/-- What became of a source. -/
inductive Fate where
  /-- It could not be read. -/
  | unread (fault : ReadFault)
  /-- It was read, and its converted text could not be written back. -/
  | unwritten (report : Report) (fault : AccessFault)
  /-- It was replaced by its converted text. -/
  | replaced (report : Report)
  /-- Its converted text is kept for the output. -/
  | kept (report : Report)
  deriving DecidableEq, Repr

namespace Fate

/-- The report on the text of a source that was read. -/
def report? : Fate → Option Report
  | .unread _ => none
  | .unwritten report _ => some report
  | .replaced report => some report
  | .kept report => some report

/-- The converted text that a source has for the output. -/
def chunk? : Fate → Option Text
  | .kept report => some report.content
  | _ => none

/-- Whether something went wrong with a source. -/
def isFailure : Fate → Bool
  | .unread _ => true
  | .unwritten _ _ => true
  | .replaced _ => false
  | .kept _ => false

/-- What became of a source whose converted text was written back, by what went wrong with that. -/
def ofWrite (report : Report) : Option AccessFault → Fate
  | none => .replaced report
  | some fault => .unwritten report fault

/-- What is said about a source in the end. -/
def verdict? (source : Source) : Fate → Option Notice
  | .unread fault => some (.unreadable source fault)
  | .unwritten _ fault => some (.unwritable source.label fault)
  | .replaced _ => some (.replaced source)
  | .kept _ => none

/-- All that is said about a source. -/
def notices (arguments : Arguments) (source : Source) (fate : Fate) : List Notice :=
  (fate.report?.toList.flatMap fun report => Progress.reportNotices arguments source report) ++
    (fate.verdict? source).toList

end Fate

/-- The turn of a source in a world, what becomes of the source, and the world behind the turn. -/
inductive Turn (arguments : Arguments) (source : Source) : World → Fate → World → Prop where
  /-- The source cannot be read. -/
  | unread {world behind : World} {fault : ReadFault}
      (read : world.readText source = (.error fault, behind)) :
      Turn arguments source world (.unread fault) behind
  /-- The source is read and cannot be written. -/
  | unwritten {world between behind : World} {text : Text} {fault : AccessFault}
      (inPlace : arguments.inPlace = true) (read : world.readText source = (.ok text, between))
      (written : between.writeText source.label (convert text) = (behind, some fault)) :
      Turn arguments source world (.unwritten (Report.ofText text) fault) behind
  /-- The source is read and written. -/
  | replaced {world between behind : World} {text : Text}
      (inPlace : arguments.inPlace = true) (read : world.readText source = (.ok text, between))
      (written : between.writeText source.label (convert text) = (behind, none)) :
      Turn arguments source world (.replaced (Report.ofText text)) behind
  /-- The source is read for the output. -/
  | kept {world behind : World} {text : Text} (toOutput : arguments.inPlace = false)
      (read : world.readText source = (.ok text, behind)) :
      Turn arguments source world (.kept (Report.ofText text)) behind

/-- A source and what became of it. -/
structure Account where
  /-- The source. -/
  source : Source
  /-- What became of it. -/
  fate : Fate
  deriving DecidableEq, Repr

namespace Account

/-- All that is said about the source. -/
def notices (arguments : Arguments) (account : Account) : List Notice :=
  account.fate.notices arguments account.source

/-- The converted text that the source has for the output. -/
def chunk? (account : Account) : Option Text :=
  account.fate.chunk?

/-- How many sources something went wrong with. -/
def failures (accounts : List Account) : Nat :=
  accounts.countP fun account => account.fate.isFailure

end Account

/-- The turns of some sources one after another. -/
inductive Turns (arguments : Arguments) : World → List Account → World → Prop where
  /-- No source changes nothing. -/
  | nil (world : World) : Turns arguments world [] world
  /-- The other sources have their turns in the world behind the turn of the first. -/
  | cons {account : Account} {accounts : List Account} {world between behind : World} :
      Turn arguments account.source world account.fate between →
      Turns arguments between accounts behind → Turns arguments world (account :: accounts) behind

variable {arguments : Arguments} {source : Source} {world : World} {fate : Fate}

namespace Turn

variable {behind : World}

/-- What becomes of a source is settled by the world in which it has its turn. -/
theorem unique {fate' : Fate} {behind' : World} (turn : Turn arguments source world fate behind)
    (turn' : Turn arguments source world fate' behind') : fate = fate' ∧ behind = behind' := by
  cases turn <;> cases turn' <;> simp_all

theorem store_of_toOutput (toOutput : arguments.inPlace = false)
    (turn : Turn arguments source world fate behind) : behind.store = world.store := by
  have untouched := world.readText_store source
  cases turn with
  | unread read => rwa [read] at untouched
  | kept _ read => rwa [read] at untouched
  | unwritten inPlace _ _ => exact absurd inPlace (by simp [toOutput])
  | replaced inPlace _ _ => exact absurd inPlace (by simp [toOutput])

/-- The turn of a file leaves the world as it is, or the text of the file is read and its conversion
is written back. -/
theorem file_cases {name : Text} (turn : Turn arguments (.file name) world fate behind) :
    behind = world ∧
        ((∃ fault, world.readText (.file name) = (.error fault, world) ∧ fate = .unread fault) ∨
          arguments.inPlace = false ∧ ∃ report, fate = .kept report) ∨
      ∃ text fault, world.readText (.file name) = (.ok text, world) ∧
        world.writeText name (convert text) = (behind, fault) ∧
        fate = .ofWrite (Report.ofText text) fault := by
  have same := world.readText_file_snd name
  cases turn with
  | unread read =>
      rw [read] at same
      subst same
      exact .inl ⟨rfl, .inl ⟨_, read, rfl⟩⟩
  | kept toOutput read =>
      rw [read] at same
      exact .inl ⟨same, .inr ⟨toOutput, _, rfl⟩⟩
  | unwritten _ read written =>
      rw [read] at same
      subst same
      exact .inr ⟨_, _, read, written, rfl⟩
  | replaced _ read written =>
      rw [read] at same
      subst same
      exact .inr ⟨_, _, read, written, rfl⟩

theorem writes_of_unwritten {name : Text} {report : Report} {fault : AccessFault}
    (turn : Turn arguments (.file name) world (.unwritten report fault) behind) :
    ∃ text, world.readText (.file name) = (.ok text, world) ∧
      world.store.Writes (Path.ofText name) (Utf8.encode (Text.closeLine (convert text)))
        behind.store (some fault) := by
  obtain ⟨_, ⟨_, _, unread⟩ | ⟨_, _, kept⟩⟩ | ⟨text, other, read, written, fate⟩ := turn.file_cases
  · cases unread
  · cases kept
  · cases other with
    | none => cases fate
    | some _ =>
        cases fate
        exact ⟨text, read, World.writes_of_writeText written⟩

/-- The turn of a file leaves the files alone, or writes once over a file that has been read; if
that breaks off, it is what becomes of the file. -/
theorem store_cases {name : Text} (turn : Turn arguments (.file name) world fate behind) :
    behind.store = world.store ∨
      ∃ location text fault, world.store.locate (Path.ofText name) = .ok location ∧
        world.store.IsReadable location ∧
        world.store.Writes (Path.ofText name) (Utf8.encode text) behind.store fault ∧
        ∀ error, fault = some (.broken error) →
          ∃ report, fate = .unwritten report (.broken error) := by
  obtain ⟨same, _⟩ | ⟨text, fault, read, written, rfl⟩ := turn.file_cases
  · exact .inl (congrArg World.store same)
  · obtain ⟨location, located, readable⟩ :=
      World.exists_readText_file_iff.mp ⟨text, congrArg Prod.fst read⟩
    refine .inr ⟨location, _, fault, located, readable, World.writes_of_writeText written, ?_⟩
    rintro error rfl
    exact ⟨_, rfl⟩

end Turn

namespace Turns

variable {accounts : List Account} {behind : World}

theorem exists_of_mem (turns : Turns arguments world accounts behind) {account : Account}
    (member : account ∈ accounts) :
    ∃ earlier later, Turn arguments account.source earlier account.fate later := by
  induction turns with
  | nil => cases member
  | cons turn _ ih =>
      rcases List.mem_cons.mp member with rfl | member
      · exact ⟨_, _, turn⟩
      · exact ih member

/-- What each turn of a file keeps, all turns of files keep. -/
theorem keeps (Keeps : World → Prop) (turns : Turns arguments world accounts behind)
    (files : .stdin ∉ accounts.map Account.source) (start : Keeps world)
    (step : ∀ name fate earlier later, .file name ∈ accounts.map Account.source →
      Turn arguments (.file name) earlier fate later → Keeps earlier → Keeps later) :
    Keeps behind := by
  induction turns with
  | nil => exact start
  | @cons account _ _ _ _ turn _ ih =>
      obtain ⟨source, fate⟩ := account
      cases source with
      | stdin => exact absurd List.mem_cons_self files
      | file name =>
          have first := step name fate _ _ List.mem_cons_self turn start
          refine ih (fun member => files (List.mem_cons_of_mem _ member)) first ?_
          intro other fate earlier later member
          exact step other fate earlier later (List.mem_cons_of_mem _ member)

theorem unique {accounts' : List Account} {behind' : World}
    (turns : Turns arguments world accounts behind)
    (turns' : Turns arguments world accounts' behind')
    (same : accounts.map Account.source = accounts'.map Account.source) :
    accounts = accounts' ∧ behind = behind' := by
  induction turns generalizing accounts' with
  | nil =>
      obtain rfl := List.map_eq_nil_iff.mp same.symm
      cases turns'
      exact ⟨rfl, rfl⟩
  | @cons account accounts world between behind turn turns ih =>
      cases turns' with
      | nil => cases same
      | @cons account' _ _ _ _ turn' turns' =>
          obtain ⟨first, rest⟩ := List.cons.inj same
          obtain ⟨source, fate⟩ := account
          obtain ⟨source', fate'⟩ := account'
          obtain rfl : source = source' := first
          obtain ⟨rfl, rfl⟩ := turn.unique turn'
          obtain ⟨rfl, rfl⟩ := ih turns' rest
          exact ⟨rfl, rfl⟩

theorem store_of_toOutput (toOutput : arguments.inPlace = false)
    (turns : Turns arguments world accounts behind) : behind.store = world.store := by
  induction turns with
  | nil => rfl
  | cons turn _ ih => rw [ih, turn.store_of_toOutput toOutput]

end Turns

namespace Progress

variable {progress later : Progress} {text : Text} {fault : ReadFault}

theorem step_of_error (read : progress.world.readText source = (.error fault, world)) :
    step arguments progress source =
      { progress with world }.fail (.unreadable source fault) := by
  rw [step, read]

theorem step_of_ok (read : progress.world.readText source = (.ok text, world)) :
    step arguments progress source =
      ({ progress with world }.say
        (reportNotices arguments source (Report.ofText text))).deliver arguments source
          (convert text) := by
  rw [step, read, ← Report.content_eq_convert]

/-- A run goes on behind a source as the fate of the source tells. -/
structure GoesOn (arguments : Arguments) (source : Source) (progress : Progress) (fate : Fate)
    (later : Progress) : Prop where
  /-- The source has its turn. -/
  turn : Turn arguments source progress.world fate later.world
  /-- What is said about it is all that is said. -/
  notices : later.notices = progress.notices ++ fate.notices arguments source
  /-- Its converted text, if it is kept, is all that there is for the output. -/
  outputs : later.outputs = progress.outputs ++ fate.chunk?.toList
  /-- It is counted if something went wrong with it. -/
  failures : later.failures = progress.failures + if fate.isFailure then 1 else 0

theorem exists_goesOn (arguments : Arguments) (progress : Progress) (source : Source) :
    ∃ fate, GoesOn arguments source progress fate (step arguments progress source) := by
  rcases read : progress.world.readText source with ⟨fault | text, between⟩
  · rw [step_of_error read]
    exact ⟨.unread fault, .unread read, rfl, (List.append_nil _).symm, rfl⟩
  · rw [step_of_ok read]
    cases inPlace : arguments.inPlace with
    | false =>
        rw [deliver, if_neg (by simp [inPlace])]
        refine ⟨.kept (Report.ofText text), .kept inPlace read, ?_, ?_, rfl⟩
        · simp [say, Fate.notices, Fate.report?, Fate.verdict?]
        · simp [say, Fate.chunk?, Report.content_eq_convert]
    | true =>
        rw [deliver, if_pos inPlace]
        rcases written : between.writeText source.label (convert text) with ⟨behind, none | fault⟩
        · simp only [say, written]
          refine ⟨.replaced (Report.ofText text), .replaced inPlace read written, ?_, ?_, rfl⟩
          · simp [Fate.notices, Fate.report?, Fate.verdict?]
          · simp [Fate.chunk?]
        · simp only [say, written]
          refine ⟨.unwritten (Report.ofText text) fault, .unwritten inPlace read written, ?_, ?_,
            rfl⟩
          · simp [fail, say, Fate.notices, Fate.report?, Fate.verdict?]
          · simp [fail, say, Fate.chunk?]

/-- A run goes on behind some sources as their accounts tell. -/
structure GoesOnAll (arguments : Arguments) (progress : Progress) (accounts : List Account)
    (later : Progress) : Prop where
  /-- The sources have their turns. -/
  turns : Turns arguments progress.world accounts later.world
  /-- What is said about them is all that is said. -/
  notices : later.notices =
    progress.notices ++ accounts.flatMap (Account.notices arguments)
  /-- Their converted texts that are kept are all that there is for the output. -/
  outputs : later.outputs = progress.outputs ++ accounts.filterMap Account.chunk?
  /-- Those that something went wrong with are counted. -/
  failures : later.failures = progress.failures + Account.failures accounts

/-- All sources have their turns, and nothing but these turns makes what the run says, has for its
output and counts. -/
theorem exists_goesOnAll (arguments : Arguments) (progress : Progress) (sources : List Source) :
    ∃ accounts : List Account, accounts.map Account.source = sources ∧
      GoesOnAll arguments progress accounts (sources.foldl (step arguments) progress) := by
  induction sources generalizing progress with
  | nil => exact ⟨[], rfl, .nil _, by simp, by simp, rfl⟩
  | cons source sources ih =>
      obtain ⟨fate, first⟩ := exists_goesOn arguments progress source
      obtain ⟨accounts, named, rest⟩ := ih (step arguments progress source)
      refine ⟨⟨source, fate⟩ :: accounts, ?_, .cons first.turn rest.turns, ?_, ?_, ?_⟩
      · rw [List.map_cons, named]
      · rw [List.foldl_cons, rest.notices, first.notices, List.flatMap_cons, List.append_assoc]
        rfl
      · rw [List.foldl_cons, rest.outputs, first.outputs, List.append_assoc, List.filterMap_cons]
        cases chunk : fate.chunk? <;> simp [Account.chunk?, chunk]
      · rw [List.foldl_cons, rest.failures, first.failures, Account.failures, Account.failures,
          List.countP_cons, Nat.add_assoc, Nat.add_comm (if fate.isFailure then 1 else 0)]

/-- The sources of a run have had their turns when it comes to its end. -/
theorem exists_accounts (arguments : Arguments) (world : World) (sources : List Source) :
    ∃ accounts : List Account, accounts.map Account.source = sources ∧
      Turns arguments world accounts (behind arguments world sources).world ∧
      (behind arguments world sources).notices = accounts.flatMap (Account.notices arguments) ∧
      (behind arguments world sources).outputs = accounts.filterMap Account.chunk? ∧
      (behind arguments world sources).failures = Account.failures accounts := by
  obtain ⟨accounts, named, whole⟩ := exists_goesOnAll arguments (start world) sources
  refine ⟨accounts, named, whole.turns, whole.notices, whole.outputs, ?_⟩
  rw [behind, whole.failures, start, Nat.zero_add]

theorem behind_append (arguments : Arguments) (world : World) (before after : List Source) :
    behind arguments world (before ++ after) =
      after.foldl (step arguments) (behind arguments world before) := by
  rw [behind, List.foldl_append]
  rfl

end Progress
end Command
end DollarMath
