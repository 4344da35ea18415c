import DollarMath.Proofs.Command.Progress

/-!
# What is said about the sources

Each source comes to one end that is said or kept for the output, and it is reported on if it was
read.  An error is said exactly where something went wrong, so the failures that a run counts are
the errors that it has said.
-/

namespace DollarMath
namespace Command

namespace Notice

/-- Whether a notice says what became of a source. -/
def isVerdict : Notice → Bool
  | .unreadable _ _ => true
  | .unwritable _ _ => true
  | .replaced _ => true
  | _ => false

/-- Whether a notice reports on a conversion. -/
def isReport : Notice → Bool
  | .converted _ _ => true
  | _ => false

end Notice

section Count

variable {arguments : Arguments}

theorem countP_reportNotices {holds : Notice → Bool}
    (noFiring : ∀ firing, holds (.fired firing) = false) (source : Source) (report : Report) :
    (Progress.reportNotices arguments source report).countP holds =
      if arguments.report && holds (.converted source report) then 1 else 0 := by
  have fired : (report.firings.map Notice.fired).countP holds = 0 := by
    simp [List.countP_eq_zero, noFiring]
  rw [Progress.reportNotices, List.countP_append, fired, Nat.zero_add]
  cases arguments.report <;> simp [List.countP_cons]

namespace Fate

theorem countP_notices {holds : Notice → Bool} (noFiring : ∀ firing, holds (.fired firing) = false)
    (source : Source) (fate : Fate) :
    (fate.notices arguments source).countP holds =
      (fate.report?.toList.countP fun report =>
          arguments.report && holds (.converted source report)) +
        (fate.verdict? source).toList.countP holds := by
  rw [notices, List.countP_append]
  cases fate.report? with
  | none => rfl
  | some report => simp [countP_reportNotices noFiring]

theorem verdict?_of_mem {source : Source} {fate : Fate} {notice : Notice}
    (said : notice ∈ fate.notices arguments source) (verdict : notice.isVerdict) :
    fate.verdict? source = some notice := by
  rw [notices, List.mem_append] at said
  obtain reported | closed := said
  · obtain ⟨report, _, reported⟩ := List.mem_flatMap.mp reported
    have none : (Progress.reportNotices arguments source report).countP Notice.isVerdict = 0 := by
      rw [countP_reportNotices fun _ => rfl]
      simp [Notice.isVerdict]
    exact absurd verdict (List.countP_eq_zero.mp none notice reported)
  · exact Option.mem_toList.mp closed

/-- A source comes to one end: a verdict is said about it, or its converted text is kept. -/
theorem countP_isVerdict_notices (source : Source) (fate : Fate) :
    (fate.notices arguments source).countP Notice.isVerdict + fate.chunk?.toList.length = 1 := by
  rw [countP_notices fun _ => rfl]
  cases fate <;> simp [report?, verdict?, chunk?, Notice.isVerdict]

/-- A source is reported on once, if it was read and reports are asked for. -/
theorem countP_isReport_notices (source : Source) (fate : Fate) :
    (fate.notices arguments source).countP Notice.isReport =
      if arguments.report && fate.report?.isSome then 1 else 0 := by
  rw [countP_notices fun _ => rfl]
  cases fate <;> simp [report?, verdict?, Notice.isReport]

/-- An error is said about a source exactly when something went wrong with it. -/
theorem countP_isError_notices (source : Source) (fate : Fate) :
    (fate.notices arguments source).countP Notice.isError = if fate.isFailure then 1 else 0 := by
  rw [countP_notices fun _ => rfl]
  cases fate <;> simp [report?, verdict?, isFailure, Notice.isError, Notice.level]

end Fate

theorem countP_isError_flatMap (accounts : List Account) :
    (accounts.flatMap (Account.notices arguments)).countP Notice.isError =
      Account.failures accounts := by
  induction accounts with
  | nil => rfl
  | cons account accounts ih =>
      rw [List.flatMap_cons, List.countP_append, ih, Account.notices, Fate.countP_isError_notices,
        Account.failures, Account.failures, List.countP_cons, Nat.add_comm]

end Count

namespace Progress

variable {arguments : Arguments} {progress : Progress}

/-- A run counts as many failures as it has said errors. -/
def CountsErrors (progress : Progress) : Prop :=
  progress.failures = progress.notices.countP Notice.isError

theorem CountsErrors.any_isError (counts : progress.CountsErrors) :
    progress.notices.any Notice.isError = !decide (progress.failures = 0) := by
  rw [counts, Bool.eq_iff_iff, List.any_eq_true, ← List.countP_pos_iff]
  simp [Nat.pos_iff_ne_zero]

theorem countsErrors_step (counts : progress.CountsErrors) (source : Source) :
    (step arguments progress source).CountsErrors := by
  obtain ⟨fate, next⟩ := exists_goesOn arguments progress source
  rw [CountsErrors, next.failures, next.notices, List.countP_append, counts,
    Fate.countP_isError_notices]

/-- A run still counts its errors when more sources have had their turns. -/
theorem countsErrors_foldl (counts : progress.CountsErrors) (sources : List Source) :
    (sources.foldl (step arguments) progress).CountsErrors := by
  induction sources generalizing progress with
  | nil => exact counts
  | cons source sources ih => exact ih (countsErrors_step counts source)

theorem countsErrors_behind (arguments : Arguments) (world : World) (sources : List Source) :
    (behind arguments world sources).CountsErrors := by
  have counts : (start world).CountsErrors := rfl
  exact countsErrors_foldl counts sources

end Progress
end Command
end DollarMath
