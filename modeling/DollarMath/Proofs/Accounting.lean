import DollarMath.Proofs.Command.Account
import DollarMath.Proofs.Command.Line

/-!
# Every source is accounted for

The log of a run is made of what it says about each source in turn and of what it says in the end:
whether its output was written, and how many sources failed.
-/

namespace DollarMath
namespace Command

variable {arguments : Arguments}

/-- What is logged about a source. -/
def Account.log (arguments : Arguments) (account : Account) : List Notice :=
  (account.notices arguments).filter (Notice.isLogged arguments.verbose)

/-- The converted texts that sources have for the output as one text. -/
def Account.joined (accounts : List Account) : Text :=
  (Text.ofString "\n\n").intercalate (accounts.filterMap Account.chunk?)

/-- What goes wrong when a text is written to the output file, if there is one. -/
def outputFault (arguments : Arguments) (world : World) (text : Text) : Option AccessFault :=
  arguments.output.bind fun output => (world.writeText output text).2

/-- What is said about a number of failures. -/
def summary : Nat → List Notice
  | 0 => []
  | failures + 1 => [.failed (failures + 1)]

/-- What is logged in the end: that the output could not be written, or that it was, and how many
sources failed. -/
def ending (arguments : Arguments) (fault : Option AccessFault) (failures : Nat) : List Notice :=
  match arguments.output, fault with
  | some output, some fault => [.unwritable output fault]
  | some output, none => .saved output :: summary failures
  | none, _ => summary failures

section Log

theorem isLogged_of_isError {verbose : Bool} {notice : Notice} (error : notice.isError) :
    notice.isLogged verbose := by
  have level : notice.level = .error := by simpa [Notice.isError] using error
  simp [Notice.isLogged, level]

theorem countP_filter_isLogged {holds : Notice → Bool} {verbose : Bool}
    (plain : ∀ notice, holds notice → notice.isLogged verbose) (notices : List Notice) :
    (notices.filter (Notice.isLogged verbose)).countP holds = notices.countP holds := by
  rw [List.countP_filter]
  refine List.countP_congr fun notice _ => ?_
  rw [Bool.and_eq_true, and_iff_left_iff_imp]
  exact plain notice

theorem any_isError_filter (verbose : Bool) (notices : List Notice) :
    (notices.filter (Notice.isLogged verbose)).any Notice.isError =
      notices.any Notice.isError := by
  rw [Bool.eq_iff_iff, List.any_eq_true, List.any_eq_true]
  constructor
  · rintro ⟨notice, member, error⟩
    exact ⟨notice, (List.mem_filter.mp member).1, error⟩
  · rintro ⟨notice, member, error⟩
    exact ⟨notice, List.mem_filter.mpr ⟨member, isLogged_of_isError error⟩, error⟩

theorem filter_isLogged_ending (fault : Option AccessFault) (failures : Nat) :
    (ending arguments fault failures).filter (Notice.isLogged arguments.verbose) =
      ending arguments fault failures := by
  have level : ∀ notice ∈ ending arguments fault failures, notice.level ≠ .debug := by
    cases output : arguments.output <;> cases fault <;> cases failures <;>
      simp [ending, output, summary, Notice.level]
  rw [List.filter_eq_self]
  intro notice member
  simp [Notice.isLogged, level notice member]

theorem conclude_log (progress : Progress) (arguments : Arguments) (stdout : Text) :
    (progress.conclude arguments stdout).log =
      ((progress.notices ++ summary progress.failures).filter
        (Notice.isLogged arguments.verbose)).map Notice.line := by
  rw [Progress.conclude]
  split
  · rename_i none
    rw [none, summary, List.append_nil]
    rfl
  · rename_i some
    obtain ⟨failures, same⟩ := Nat.exists_eq_succ_of_ne_zero some
    rw [same, summary]
    rfl

/-- What a run has said when it comes to its end is its log. -/
theorem finish_log (clear : arguments.inPlace = true → arguments.output = none)
    (progress : Progress) :
    (progress.finish arguments).log =
      ((progress.notices ++
        ending arguments (outputFault arguments progress.world progress.joined)
          progress.failures).filter (Notice.isLogged arguments.verbose)).map Notice.line := by
  obtain ⟨stdout, named, same⟩ | ⟨output, last, named, written, same⟩ |
    ⟨output, last, fault, named, written, same⟩ := Progress.finish_cases clear progress
  · rw [same, conclude_log]
    simp only [ending, named]
  · rw [same, conclude_log]
    simp [ending, outputFault, named, written, Progress.say]
  · rw [same, Progress.close]
    simp [ending, outputFault, named, written, Progress.say]

/-- A run fails when it has counted failures, or when it cannot write its output. -/
theorem finish_exit (clear : arguments.inPlace = true → arguments.output = none)
    (progress : Progress) :
    (progress.finish arguments).exit =
      if progress.failures = 0 ∧ outputFault arguments progress.world progress.joined = none then 0
      else 1 := by
  obtain ⟨stdout, named, same⟩ | ⟨output, last, named, written, same⟩ |
    ⟨output, last, fault, named, written, same⟩ := Progress.finish_cases clear progress
  · rw [same, Progress.exit_conclude]
    simp [outputFault, named]
  · have noFault : outputFault arguments progress.world progress.joined = none := by
      simp [outputFault, named, written]
    rw [same, Progress.exit_conclude, noFault]
    by_cases none : progress.failures = 0 <;> simp [Progress.say, none]
  · rw [same, Progress.close]
    simp [outputFault, named, written]

theorem complaint_finish (clear : arguments.inPlace = true → arguments.output = none)
    (progress : Progress) : (progress.finish arguments).complaint = [] := by
  obtain ⟨stdout, _, same⟩ | ⟨output, last, _, _, same⟩ | ⟨output, last, fault, _, _, same⟩ :=
    Progress.finish_cases clear progress
  · rw [same, Progress.complaint_conclude]
  · rw [same, Progress.complaint_conclude]
  · rw [same, Progress.close]

/-- In the end an error is said if there is a failure to say, or if the output could not be
written. -/
theorem any_isError_ending (fault : Option AccessFault) (failures : Nat)
    (noOutput : arguments.output = none → fault = none) :
    (ending arguments fault failures).any Notice.isError =
      !decide (failures = 0 ∧ fault = none) := by
  cases named : arguments.output <;> cases fault <;> cases failures <;>
    simp_all [ending, summary, Notice.isError, Notice.level]

/-- What is logged about sources is what is said about them, but for details. -/
theorem flatMap_log (accounts : List Account) :
    accounts.flatMap (Account.log arguments) =
      (accounts.flatMap (Account.notices arguments)).filter
        (Notice.isLogged arguments.verbose) := by
  rw [List.filter_flatMap]
  rfl

theorem countP_isError_log (accounts : List Account) :
    (accounts.flatMap (Account.log arguments)).countP Notice.isError =
      Account.failures accounts := by
  rw [flatMap_log, countP_filter_isLogged fun _ => isLogged_of_isError, countP_isError_flatMap]

theorem finish_log_of_accounts (clear : arguments.inPlace = true → arguments.output = none)
    {progress : Progress} {accounts : List Account}
    (notices : progress.notices = accounts.flatMap (Account.notices arguments))
    (failures : progress.failures = Account.failures accounts) :
    (progress.finish arguments).log =
      (accounts.flatMap (Account.log arguments) ++
        ending arguments (outputFault arguments progress.world progress.joined)
          (Account.failures accounts)).map Notice.line := by
  rw [finish_log clear, List.filter_append, filter_isLogged_ending, notices, failures, flatMap_log]

/-- The errors of a log end with the number of failures, if there are any, when the output was
written. -/
theorem getLast?_errors (accounts : List Account) :
    ((accounts.flatMap (Account.log arguments) ++
        ending arguments none (Account.failures accounts)).filter Notice.isError).getLast? =
      if Account.failures accounts = 0 then none
      else some (.failed (Account.failures accounts)) := by
  have inTheEnd : (ending arguments none (Account.failures accounts)).filter Notice.isError =
      summary (Account.failures accounts) := by
    cases named : arguments.output <;> cases Account.failures accounts <;>
      simp [ending, named, summary, Notice.isError, Notice.level]
  rw [List.filter_append, inTheEnd]
  cases failures : Account.failures accounts with
  | zero =>
      have none : (accounts.flatMap (Account.log arguments)).countP Notice.isError = 0 := by
        rw [countP_isError_log, failures]
      rw [List.filter_eq_nil_iff.mpr (List.countP_eq_zero.mp none)]
      rfl
  | succ failures => simp [summary]

theorem filter_isError_map_line (notices : List Notice) :
    (notices.map Notice.line).filter LogLine.isError =
      (notices.filter Notice.isError).map Notice.line :=
  List.filter_map

end Log

/-- What holds of a source that has had its turn. -/
structure Account.IsClosed (arguments : Arguments) (account : Account) : Prop where
  /-- One thing is said about the source in the end, or its converted text is kept. -/
  once : (account.log arguments).countP Notice.isVerdict + account.chunk?.toList.length = 1
  /-- Only a run in place says that it has replaced the source. -/
  replaced : .replaced account.source ∈ account.log arguments → arguments.inPlace = true
  /-- Only a run that is not in place keeps the text. -/
  kept : account.chunk?.isSome → arguments.inPlace = false
  /-- The source is reported on if it was read and reports are asked for. -/
  reported : (account.log arguments).countP Notice.isReport =
    if arguments.report && account.fate.report?.isSome then 1 else 0
  /-- An error is logged if something went wrong. -/
  failed : (account.log arguments).countP Notice.isError = if account.fate.isFailure then 1 else 0

/-- The sources of a run in a world have had their turns, and nothing but these makes what the run
leaves behind. -/
structure IsAccounted (arguments : Arguments) (world : World) (outcome : Outcome)
    (accounts : List Account) (behind : World) (notices : List Notice) : Prop where
  /-- The sources are those that are asked for, in order. -/
  sources : accounts.map Account.source = arguments.sourcesOrStdin
  /-- They have had their turns in order. -/
  turns : Turns arguments world accounts behind
  /-- Each of them has come to one end. -/
  closed : ∀ account ∈ accounts, account.IsClosed arguments
  /-- What is said about them comes first, then what is said in the end. -/
  said : notices = accounts.flatMap (Account.log arguments) ++
    ending arguments (outputFault arguments behind (Account.joined accounts))
      (Account.failures accounts)
  /-- That is the log, and nothing else stands in the standard error. -/
  log : outcome.complaint = [] ∧ outcome.log = notices.map Notice.line
  /-- The kept texts are the conversions of the texts that the sources hold. -/
  chunks : arguments.inPlace = false →
    accounts.filterMap Account.chunk? = (world.texts arguments.sourcesOrStdin).map convert
  /-- They stand in the standard output, when that is the output. -/
  stdout : arguments.inPlace = false → arguments.output = none →
    outcome.stdout = Text.closeLine (Account.joined accounts)
  /-- They are written to the output file, if there is one. -/
  saved : ∀ output ∈ arguments.output,
    outcome.store = (behind.writeText output (Account.joined accounts)).1.store
  /-- The run fails if an error is logged. -/
  exit : outcome.exit = if outcome.log.any LogLine.isError then 1 else 0
  /-- The last error says how many sources failed, if some did and the output was written. -/
  last : outputFault arguments behind (Account.joined accounts) = none →
    (outcome.log.filter LogLine.isError).getLast? =
      if Account.failures accounts = 0 then none
      else some ⟨.error, Text.decimal (Account.failures accounts) ++ " source(s) failed"⟩

theorem Turn.isClosed {account : Account} {world behind : World}
    (turn : Turn arguments account.source world account.fate behind) :
    account.IsClosed arguments := by
  constructor
  · rw [Account.log, countP_filter_isLogged]
    · exact Fate.countP_isVerdict_notices _ _
    · intro notice
      cases notice <;> simp [Notice.isVerdict, Notice.isLogged, Notice.level]
  · intro said
    have verdict := Fate.verdict?_of_mem (List.mem_filter.mp said).1 rfl
    obtain ⟨source, fate⟩ := account
    cases turn with
    | unread _ => cases verdict
    | unwritten inPlace _ _ => exact inPlace
    | replaced inPlace _ _ => exact inPlace
    | kept _ _ => cases verdict
  · intro chunk
    obtain ⟨source, fate⟩ := account
    cases turn with
    | unread _ => cases chunk
    | unwritten _ _ _ => cases chunk
    | replaced _ _ _ => cases chunk
    | kept toOutput _ => exact toOutput
  · rw [Account.log, countP_filter_isLogged]
    · exact Fate.countP_isReport_notices _ _
    · intro notice
      cases notice <;> simp [Notice.isReport, Notice.isLogged, Notice.level]
  · rw [Account.log, countP_filter_isLogged fun _ => isLogged_of_isError]
    exact Fate.countP_isError_notices _ _

theorem exit_of_counts {progress : Progress} (counts : progress.CountsErrors)
    (clear : arguments.inPlace = true → arguments.output = none) :
    (progress.finish arguments).exit =
      if (progress.finish arguments).log.any LogLine.isError then 1 else 0 := by
  have noOutput : arguments.output = none →
      outputFault arguments progress.world progress.joined = none := by
    intro none
    rw [outputFault, none, Option.bind_none]
  have errors : (progress.finish arguments).log.any LogLine.isError =
      !decide (progress.failures = 0 ∧
        outputFault arguments progress.world progress.joined = none) := by
    rw [finish_log clear, List.any_map]
    change List.any _ Notice.isError = _
    rw [any_isError_filter, List.any_append, counts.any_isError, any_isError_ending _ _ noOutput]
    by_cases none : progress.failures = 0 <;> simp [none]
  rw [finish_exit clear, errors]
  by_cases regular : progress.failures = 0 ∧
      outputFault arguments progress.world progress.joined = none
  · simp [regular]
  · simp only [regular, decide_false, Bool.not_false, if_true, if_false]

/-- Every source of a run is accounted for once.  The sources have their turns in order, and in the
log there is one line about each of them that says that it could not be read, could not be written
or was replaced, unless its converted text is one of the chunks of the output; it is reported on,
if that is asked for, exactly when it was read.  The run fails exactly when an error is logged, and
unless the output could not be written the last error gives the number of sources that failed, if
there are any.  The sources are taken to be read as UTF-8. -/
theorem every_source_is_accounted_for {habits : Habits} {line : List Text}
    (starts : Starts habits line arguments) (world : World)
    (utf8 : world.ReadsUtf8 arguments.sourcesOrStdin) :
    ∃ accounts behind notices,
      IsAccounted arguments world (run habits line world) accounts behind notices := by
  obtain ⟨accounts, named, turns, notices, outputs, failures⟩ :=
    Progress.exists_accounts arguments world arguments.sourcesOrStdin
  have clear : arguments.inPlace = true → arguments.output = none := by
    intro inPlace
    rw [← Option.not_isSome_iff_eq_none]
    exact fun output => starts.clear ⟨inPlace, .inl output⟩
  have counts := Progress.countsErrors_behind arguments world arguments.sourcesOrStdin
  set behind := Progress.behind arguments world arguments.sourcesOrStdin
  have joined : behind.joined = Account.joined accounts := by
    rw [Progress.joined, outputs]
    rfl
  have log := finish_log_of_accounts clear notices failures
  rw [joined] at log
  refine ⟨accounts, behind.world, _, named, turns, ?_, rfl, ?_, ?_, ?_, ?_, ?_, ?_⟩
  · intro account member
    obtain ⟨_, _, turn⟩ := turns.exists_of_mem member
    exact turn.isClosed
  · rw [starts.run_eq]
    exact ⟨complaint_finish clear behind, log⟩
  · intro toOutput
    rw [← named] at utf8 ⊢
    exact (turns.of_toOutput toOutput utf8).1
  · intro toOutput stdout
    rw [starts.run_eq, Progress.finish_of_stdout toOutput stdout, Progress.stdout_conclude, joined]
  · intro output saved
    have toOutput : arguments.inPlace = false := by
      rw [← Bool.not_eq_true]
      intro inPlace
      simp [clear inPlace] at saved
    rw [starts.run_eq, Progress.store_finish_of_output toOutput saved, joined]
  · rw [starts.run_eq]
    exact exit_of_counts counts clear
  · intro written
    rw [starts.run_eq, log, filter_isError_map_line, List.getLast?_map, written, getLast?_errors]
    split <;> rfl

/-- A file that is no text next to one that is converted for the output and to the standard input,
and next to files that are converted in place, one of which may not be written. -/
theorem every_source_is_accounted_for_of_undecodable :
    let habits : Habits := ⟨false, true, true⟩
    let denied : SystemError := ⟨13, "Permission denied", true⟩
    let device : Device := { Device.roomy with
      write := fun location => if location = ⟨["c.md"]⟩ then some denied else none }
    let store : Store := ⟨[(⟨["a.md"]⟩, .file (Utf8.encode "\\(x\\)")), (⟨["b.md"]⟩, .file [0xFF]),
      (⟨["c.md"]⟩, .file (Utf8.encode "z"))], ⟨[]⟩, device⟩
    let world : World := ⟨store, Utf8.encode "y\r\n", .strict⟩
    let undecoded : Fate := .unread (.decoding ⟨0, 0xFF, 1, .invalidStart⟩)
    let save : Arguments :=
      ⟨[.file "a.md", .stdin, .file "b.md"], some "d.md", false, false, false, false⟩
    let replace : Arguments :=
      ⟨[.file "a.md", .file "b.md", .file "c.md"], none, true, false, false, false⟩
    let saved : List Account :=
      [⟨.file "a.md", .kept (Report.ofText "\\(x\\)")⟩, ⟨.stdin, .kept (Report.ofText "y\n")⟩,
        ⟨.file "b.md", undecoded⟩]
    let replaced : List Account :=
      [⟨.file "a.md", .replaced (Report.ofText "\\(x\\)")⟩, ⟨.file "b.md", undecoded⟩,
        ⟨.file "c.md", .unwritten (Report.ofText "z") (.refused denied)⟩]
    let saving := run habits ["a.md", "-", "b.md", "-o", "d.md"] world
    let replacing := run habits ["a.md", "b.md", "c.md", "--in-place"] world
    (saving.log.getLast? = some ⟨.error, "1 source(s) failed"⟩ ∧ saving.exit = 1 ∧
      ∃ behind notices, IsAccounted save world saving saved behind notices) ∧
    (replacing.log.getLast? = some ⟨.error, "2 source(s) failed"⟩ ∧ replacing.exit = 1 ∧
      ∃ behind notices, IsAccounted replace world replacing replaced behind notices) := by
  intro habits denied device store world undecoded save replace saved replaced saving replacing
  constructor
  · refine ⟨by decide +kernel, by decide +kernel, ?_⟩
    have starts : Starts habits ["a.md", "-", "b.md", "-o", "d.md"] save :=
      ⟨by decide, rfl, by decide⟩
    obtain ⟨accounts, behind, notices, accounted⟩ :=
      every_source_is_accounted_for starts world fun _ => .inl rfl
    let later : World := { world with stdin := [] }
    have first : Turn save (.file "a.md") world (.kept (Report.ofText "\\(x\\)")) world :=
      .kept rfl (Prod.ext (by decide +kernel) (world.readText_file_snd _))
    have second : Turn save .stdin world (.kept (Report.ofText "y\n")) later :=
      .kept rfl (Prod.ext (by decide +kernel) (world.readText_snd _))
    have third : Turn save (.file "b.md") later undecoded later :=
      .unread (Prod.ext (by decide +kernel) (later.readText_file_snd _))
    have turns : Turns save world saved later :=
      .cons first (.cons second (.cons third (.nil _)))
    obtain ⟨rfl, rfl⟩ := turns.unique accounted.turns accounted.sources.symm
    exact ⟨_, _, accounted⟩
  · refine ⟨by decide +kernel, by decide +kernel, ?_⟩
    have starts : Starts habits ["a.md", "b.md", "c.md", "--in-place"] replace :=
      ⟨by decide, rfl, by decide⟩
    obtain ⟨accounts, behind, notices, accounted⟩ :=
      every_source_is_accounted_for starts world (World.readsUtf8_of_not_mem (by decide))
    let later := (world.writeText "a.md" (convert "\\(x\\)")).1
    have first : Turn replace (.file "a.md") world (.replaced (Report.ofText "\\(x\\)")) later :=
      .replaced rfl (Prod.ext (by decide +kernel) (world.readText_file_snd _))
        (Prod.ext rfl (by decide +kernel))
    have second : Turn replace (.file "b.md") later undecoded later :=
      .unread (Prod.ext (by decide +kernel) (later.readText_file_snd _))
    have third : Turn replace (.file "c.md") later
        (.unwritten (Report.ofText "z") (.refused denied))
        (later.writeText "c.md" (convert "z")).1 :=
      .unwritten rfl (Prod.ext (by decide +kernel) (later.readText_file_snd _))
        (Prod.ext rfl (by decide +kernel))
    have turns : Turns replace world replaced _ := .cons first (.cons second (.cons third (.nil _)))
    obtain ⟨rfl, rfl⟩ := turns.unique accounted.turns accounted.sources.symm
    exact ⟨_, _, accounted⟩

end Command
end DollarMath
