import DollarMath.Markup.Layout
import DollarMath.Proofs.Text.Flush

/-!
# Line ends and runs of blank characters

A text is a run of blank characters, or one followed by a visible character and another text;
what is said of blank characters is proved along this cut.  The two edits that look at blank
characters alone are described by what they leave nothing to do: no space or tab before a line
end, and no run of blank characters with three line breaks.  Both drop blank characters only where
a line ends behind them, and look no further than the next visible character on each side.
-/

namespace DollarMath
namespace Layout

/-- Texts are built up from runs of blank characters, with visible characters between them. -/
theorem run_induction {motive : Text → Prop} (run : ∀ run, Text.isBlankText run → motive run)
    (more : ∀ run c text, Text.isBlankText run → Text.isBlank c = false → motive text →
      motive (run ++ c :: text)) (text : Text) : motive text := by
  have general : ∀ run, Text.isBlankText run → motive (run ++ text) := by
    induction text with
    | nil =>
        intro blanks blank
        simpa using run blanks blank
    | cons c text ih =>
        intro blanks blank
        cases visible : Text.isBlank c with
        | true =>
            have longer : Text.isBlankText (blanks ++ [c]) := by
              simpa [Text.isBlankText, visible] using blank
            simpa using ih (blanks ++ [c]) longer
        | false => exact more blanks c text blank visible (ih [] rfl)
  simpa using general [] rfl

theorem isBlankText_pair {c : Char} (blank : Text.isBlank c) : Text.isBlankText [c, '\n'] := by
  rw [Text.isBlankText, List.all_cons, blank]
  rfl

theorem takeWhile_run {run text : Text} {c : Char} (blank : Text.isBlankText run)
    (visible : Text.isBlank c = false) : (run ++ c :: text).takeWhile Text.isBlank = run := by
  rw [List.takeWhile_append_of_pos (Text.isBlankText_iff.mp blank),
    List.takeWhile_cons_of_neg (by simp [visible]), List.append_nil]

/-- A text and what is left of it when blank characters go where a line ends behind them. -/
inductive ThinsLineEnds : Text → Text → Prop where
  /-- Nothing is left of nothing. -/
  | nil : ThinsLineEnds [] []
  /-- A character stays. -/
  | keep (c : Char) {before after : Text} :
      ThinsLineEnds before after → ThinsLineEnds (c :: before) (c :: after)
  /-- A blank character goes. -/
  | drop {c : Char} {before after : Text} (blank : Text.isBlank c) (ends : atLineEnd after) :
      ThinsLineEnds before after → ThinsLineEnds (c :: before) after

namespace ThinsLineEnds

variable {before after : Text}

theorem keeps (front : Text) (thins : ThinsLineEnds before after) :
    ThinsLineEnds (front ++ before) (front ++ after) := by
  induction front with
  | nil => exact thins
  | cons c front ih => exact .keep c ih

theorem drops {run : Text} (blank : Text.isBlankText run) (ends : atLineEnd after)
    (thins : ThinsLineEnds before after) : ThinsLineEnds (run ++ before) after := by
  induction run with
  | nil => exact thins
  | cons c run ih =>
      simp only [Text.isBlankText, List.all_cons, Bool.and_eq_true] at blank
      exact .drop blank.1 ends (ih blank.2)

theorem atLineEnd_after (thins : ThinsLineEnds before after) (ends : atLineEnd before) :
    atLineEnd after := by
  cases thins with
  | nil => rfl
  | keep c _ => exact ends
  | drop _ ends _ => exact ends

theorem trans {last : Text} (first : ThinsLineEnds before after)
    (second : ThinsLineEnds after last) : ThinsLineEnds before last := by
  induction first generalizing last with
  | nil => exact second
  | keep c _ ih =>
      cases second with
      | keep _ second => exact .keep c (ih second)
      | drop blank ends second => exact .drop blank ends (ih second)
  | drop blank ends _ ih => exact .drop blank (second.atLineEnd_after ends) (ih second)

theorem thins (thins : ThinsLineEnds before after) : Text.Thins Text.isBlank before after := by
  induction thins with
  | nil => exact .nil
  | keep c _ ih => exact .keep c ih
  | drop blank _ _ ih => exact .drop blank ih

theorem filter_eq {kept : Char → Bool} (noBlank : ∀ c, Text.isBlank c → kept c = false)
    (thins : ThinsLineEnds before after) : after.filter kept = before.filter kept := by
  induction thins with
  | nil => rfl
  | keep c _ ih => rw [List.filter_cons, List.filter_cons, ih]
  | drop blank _ _ ih => rw [ih, List.filter_cons_of_neg (by simp [noBlank _ blank])]

end ThinsLineEnds

section LineEnds

theorem thinsLineEnds_trimLineEnds (text : Text) : ThinsLineEnds text (trimLineEnds text) := by
  induction text with
  | nil => exact .nil
  | cons c text ih =>
      rw [trimLineEnds]
      split
      · rename_i spare
        simp only [Bool.and_eq_true] at spare
        exact .drop (Text.isBlank_of_isSpaceOrTab spare.1) spare.2 ih
      · exact .keep c ih

theorem thins_trimLineEnds (text : Text) : Text.Thins Text.isBlank text (trimLineEnds text) :=
  (thinsLineEnds_trimLineEnds text).thins

theorem trimLineEnds_cons_of_visible {c : Char} (visible : Text.isBlank c = false) (text : Text) :
    trimLineEnds (c :: text) = c :: trimLineEnds text := by
  have noSpace : Text.isSpaceOrTab c = false := by
    rw [← Bool.not_eq_true]
    exact fun space => by simp [Text.isBlank_of_isSpaceOrTab space] at visible
  rw [trimLineEnds, noSpace]
  rfl

/-- Whether spaces and tabs go depends on what stands up to the next visible character. -/
theorem partsAtVisible_trimLineEnds : Text.PartsAtVisible trimLineEnds where
  nil := rfl
  part left c visible := by
    induction left with
    | nil => exact ⟨[], .slnil, trimLineEnds_cons_of_visible visible⟩
    | cons d left ih =>
        obtain ⟨left', less, part⟩ := ih
        have end_eq : ∀ right, atLineEnd (left' ++ c :: right) = atLineEnd (left' ++ [c]) := by
          intro right
          cases left' <;> rfl
        by_cases spare : (Text.isSpaceOrTab d && atLineEnd (left' ++ [c])) = true
        · refine ⟨left', less.cons d, fun right => ?_⟩
          rw [List.cons_append, trimLineEnds, part, end_eq, if_pos spare]
        · refine ⟨d :: left', less.cons_cons d, fun right => ?_⟩
          rw [List.cons_append, trimLineEnds, part, end_eq, if_neg spare, List.cons_append]

theorem trimLineEnds_trimLineEnds (text : Text) :
    trimLineEnds (trimLineEnds text) = trimLineEnds text := by
  induction text with
  | nil => rfl
  | cons c text ih =>
      by_cases spare : (Text.isSpaceOrTab c && atLineEnd (trimLineEnds text)) = true
      · simp only [trimLineEnds, spare, if_true, ih]
      · simp only [trimLineEnds, spare, if_false, ih, Bool.false_eq_true]

theorem trimLineEnds_eq_self_iff {text : Text} :
    trimLineEnds text = text ↔
      (∀ c, Text.isSpaceOrTab c → ¬ [c, '\n'] <:+: text) ∧
        ∀ c, text.getLast? = some c → Text.isSpaceOrTab c = false := by
  induction text with
  | nil => simp [trimLineEnds]
  | cons d text ih =>
      have step : trimLineEnds (d :: text) = d :: text ↔
          trimLineEnds text = text ∧ ¬ (Text.isSpaceOrTab d ∧ atLineEnd text) := by
        have shorter := (thins_trimLineEnds text).sublist.length_le
        rw [trimLineEnds]
        constructor
        · intro fixed
          split at fixed
          · have lengths := congrArg List.length fixed
            simp only [List.length_cons] at lengths
            omega
          · rename_i kept
            rw [List.cons.injEq] at fixed
            rw [fixed.2] at kept
            exact ⟨fixed.2, by simpa using kept⟩
        · rintro ⟨fixed, kept⟩
          rw [fixed, if_neg (by simpa using kept)]
      rw [step, ih]
      cases text with
      | nil =>
          have short : ∀ c, ¬ [c, '\n'] <:+: [d] := fun c inside => by
            simpa using inside.length_le
          simp [atLineEnd, short]
      | cons e text =>
          simp only [List.getLast?_cons_cons, List.infix_cons_iff, List.cons_prefix_cons,
            atLineEnd, beq_iff_eq]
          grind

/-- Trimming line ends brings no visible characters together. -/
theorem infix_of_infix_trimLineEnds {word text : Text}
    (visible : ∀ c ∈ word, Text.isBlank c = false) :
    (word <+: trimLineEnds text → word <+: text) ∧
      (word <:+: trimLineEnds text → word <:+: text) := by
  induction text generalizing word with
  | nil => exact ⟨id, id⟩
  | cons c text ih =>
      rw [trimLineEnds]
      split
      · rename_i spare
        refine ⟨fun front => ?_, fun inside => List.infix_cons ((ih visible).2 inside)⟩
        simp only [Bool.and_eq_true] at spare
        cases trimmed : trimLineEnds text with
        | nil =>
            rw [trimmed, List.prefix_nil] at front
            simp [front]
        | cons d rest =>
            rw [trimmed, atLineEnd, beq_iff_eq] at spare
            rw [trimmed, spare.2] at front
            have foreign : '\n' ∉ word := fun member =>
              absurd (visible '\n' member) (by decide)
            simp [Text.eq_nil_of_prefix_cons foreign front]
      · refine Text.infix_cons_imp c ?_ (ih visible).2
        rintro later rfl
        exact (ih fun d member => visible d (List.mem_cons_of_mem c member)).1

end LineEnds

section Runs

theorem beforeBreaks_append {first : Text} (noBreak : '\n' ∉ first) (rest : Text) :
    beforeBreaks (first ++ '\n' :: rest) = first := by
  have all : ∀ c ∈ first, (c != '\n') = true := by
    intro c member
    rw [bne_iff_ne]
    rintro rfl
    exact noBreak member
  rw [beforeBreaks, List.takeWhile_append_of_pos all, List.takeWhile_cons_of_neg (by simp),
    List.append_nil]

theorem behindBreaks_append {last : Text} (noBreak : '\n' ∉ last) (rest : Text) :
    behindBreaks (rest ++ '\n' :: last) = last := by
  have reversed : (rest ++ '\n' :: last).reverse = last.reverse ++ '\n' :: rest.reverse := by
    simp
  rw [behindBreaks, reversed, beforeBreaks_append (by simpa using noBreak), List.reverse_reverse]

theorem isBlankText_behindBreaks {run : Text} (blank : Text.isBlankText run) :
    Text.isBlankText (behindBreaks run) := by
  refine Text.isBlankText_of_subset (fun c member => ?_) blank
  rw [behindBreaks, List.mem_reverse] at member
  exact List.mem_reverse.mp ((List.takeWhile_prefix _).subset member)

/-- A run with more than two line breaks keeps what stands before its first break and behind its
last one; another run stays. -/
theorem closeRun_cases (run : Text) :
    (run.count '\n' ≤ 2 ∧ closeRun run = run) ∨
      ∃ first middle last, 2 < run.count '\n' ∧ '\n' ∉ first ∧ '\n' ∉ last ∧
        run = first ++ '\n' :: (middle ++ '\n' :: last) ∧
        closeRun run = first ++ '\n' :: '\n' :: last := by
  by_cases many : 2 < run.count '\n'
  · right
    have someBreak : '\n' ∈ run := List.count_pos_iff.mp (by omega)
    obtain ⟨first, rest, rfl, noFirst⟩ := List.eq_append_cons_of_mem someBreak
    have otherBreak : '\n' ∈ rest.reverse := by
      rw [List.count_append, List.count_cons_self, List.count_eq_zero_of_not_mem noFirst] at many
      rw [List.mem_reverse]
      exact List.count_pos_iff.mp (by omega)
    obtain ⟨last, middle, reversed, noLast⟩ := List.eq_append_cons_of_mem otherBreak
    have parts : rest = middle.reverse ++ '\n' :: last.reverse := by
      rw [← List.reverse_reverse rest, reversed]
      simp
    subst parts
    refine ⟨first, middle.reverse, last.reverse, many, noFirst, by simpa using noLast, rfl, ?_⟩
    have noLast' : '\n' ∉ last.reverse := by simpa using noLast
    have before := beforeBreaks_append noFirst (middle.reverse ++ '\n' :: last.reverse)
    have behind := behindBreaks_append noLast' (first ++ '\n' :: middle.reverse)
    rw [List.append_assoc, List.cons_append] at behind
    rw [closeRun, if_pos many, before, behind]
    simp [Text.ofString]
  · left
    exact ⟨by omega, by rw [closeRun, if_neg many]⟩

/-- A run keeps its line breaks, and of more than two it keeps two. -/
theorem count_closeRun (run : Text) : (closeRun run).count '\n' = min (run.count '\n') 2 := by
  rcases closeRun_cases run with ⟨few, same⟩ | ⟨first, _, last, many, noFirst, noLast, _, closed⟩
  · rw [same, Nat.min_eq_left few]
  · rw [closed, List.count_append, List.count_cons_self, List.count_cons_self,
      List.count_eq_zero_of_not_mem noFirst, List.count_eq_zero_of_not_mem noLast,
      Nat.min_eq_right many.le]

theorem count_closeRun_le (run : Text) : (closeRun run).count '\n' ≤ 2 := by
  rw [count_closeRun]
  exact Nat.min_le_right _ 2

theorem closeRun_eq_self_iff {run : Text} : closeRun run = run ↔ run.count '\n' ≤ 2 := by
  constructor
  · intro fixed
    rw [← fixed]
    exact count_closeRun_le run
  · intro few
    rw [closeRun, if_neg (by omega)]

/-- What goes from a run has a line break behind it, whatever follows the run. -/
theorem thinsLineEnds_closeRun_append {run before after : Text} (blank : Text.isBlankText run)
    (behind : ThinsLineEnds before after) :
    ThinsLineEnds (run ++ before) (closeRun run ++ after) := by
  rcases closeRun_cases run with ⟨_, same⟩ | ⟨first, middle, last, _, _, _, parts, closed⟩
  · rw [same]
    exact behind.keeps run
  · rw [closed]
    subst parts
    have spare : Text.isBlankText middle :=
      Text.isBlankText_of_subset (fun c member => by simp [member]) blank
    have inner : ThinsLineEnds (middle ++ '\n' :: (last ++ before)) ('\n' :: (last ++ after)) :=
      .drops spare rfl (.keep '\n' (behind.keeps last))
    simpa using ThinsLineEnds.keeps first (.keep '\n' inner)

theorem thins_closeRun {run : Text} (blank : Text.isBlankText run) :
    Text.Thins Text.isBlank run (closeRun run) := by
  simpa using (thinsLineEnds_closeRun_append blank .nil).thins

theorem isBlankText_closeRun {run : Text} (blank : Text.isBlankText run) :
    Text.isBlankText (closeRun run) :=
  Text.isBlankText_of_subset (thins_closeRun blank).sublist.subset blank

/-- Closing up a run puts no other character before a line break. -/
theorem pair_infix_closeRun {c : Char} (other : c ≠ '\n') {run : Text}
    (inside : [c, '\n'] <:+: closeRun run) : [c, '\n'] <:+: run := by
  rcases closeRun_cases run with ⟨_, same⟩ | ⟨first, middle, last, _, _, noLast, parts, closed⟩
  · rwa [same] at inside
  · have front : first ++ ['\n'] <+: run := ⟨middle ++ '\n' :: last, by simp [parts]⟩
    have behind : ¬ [c, '\n'] <:+: '\n' :: last := by
      rw [List.infix_cons_iff, List.cons_prefix_cons, not_or]
      exact ⟨fun same => other same.1, fun later => noLast (later.subset (by simp))⟩
    have seam : closeRun run = (first ++ ['\n']) ++ '\n' :: last := by simp [closed]
    rw [seam, List.infix_append_iff_ne_nil] at inside
    rcases inside with before | after | ⟨left, right, leftNonempty, rightNonempty, whole, ends, _⟩
    · exact before.trans front.isInfix
    · exact absurd after behind
    · have lengths := congrArg List.length whole
      rw [List.length_append] at lengths
      have one := List.length_pos_iff.mpr leftNonempty
      have two := List.length_pos_iff.mpr rightNonempty
      have single : left.length = 1 := by
        simp only [List.length_cons, List.length_nil] at lengths
        omega
      obtain ⟨d, rfl⟩ := List.length_eq_one_iff.mp single
      rw [List.singleton_append, List.cons.injEq] at whole
      have last := List.singleton_suffix_append_singleton_iff.mp ends
      exact absurd (whole.1.trans last) other

theorem closeRuns_run {run : Text} (blank : Text.isBlankText run) :
    closeRuns run = closeRun run := by
  have spacing : Spacing.ofText run = ⟨run, []⟩ := by
    induction run with
    | nil => rfl
    | cons c run ih =>
        simp only [Text.isBlankText, List.all_cons, Bool.and_eq_true] at blank
        simp [Spacing.ofText, ih blank.2, blank.1]
  simp [closeRuns, spacing, Spacing.mapRuns, Spacing.toText]

theorem closeRuns_append_cons {run text : Text} {c : Char} (blank : Text.isBlankText run)
    (visible : Text.isBlank c = false) :
    closeRuns (run ++ c :: text) = closeRun run ++ c :: closeRuns text := by
  have spacing : Spacing.ofText (run ++ c :: text) =
      ⟨run, (c, (Spacing.ofText text).margin) :: (Spacing.ofText text).cells⟩ := by
    induction run with
    | nil => simp [Spacing.ofText, visible]
    | cons d run ih =>
        simp only [Text.isBlankText, List.all_cons, Bool.and_eq_true] at blank
        simp [Spacing.ofText, ih blank.2, blank.1]
  simp [closeRuns, spacing, Spacing.mapRuns, Spacing.toText]

theorem thinsLineEnds_closeRuns (text : Text) : ThinsLineEnds text (closeRuns text) := by
  induction text using run_induction with
  | run run blank =>
      rw [closeRuns_run blank]
      simpa using thinsLineEnds_closeRun_append blank .nil
  | more run c text blank visible ih =>
      rw [closeRuns_append_cons blank visible]
      exact thinsLineEnds_closeRun_append blank (.keep c ih)

theorem partsAtVisible_closeRuns : Text.PartsAtVisible closeRuns where
  nil := rfl
  part left c visible := by
    induction left using run_induction with
    | run run blank =>
        exact ⟨closeRun run, (thins_closeRun blank).sublist,
          fun right => closeRuns_append_cons blank visible⟩
    | more run d left blank visible' ih =>
        obtain ⟨left', less, part⟩ := ih
        refine ⟨closeRun run ++ d :: left', ?_, fun right => ?_⟩
        · exact (thins_closeRun blank).sublist.append (less.cons_cons d)
        · rw [List.append_assoc, List.cons_append, closeRuns_append_cons blank visible', part,
            List.append_assoc, List.cons_append]

theorem pair_infix_closeRuns {c : Char} (blank : Text.isBlank c) (other : c ≠ '\n') {text : Text}
    (inside : [c, '\n'] <:+: closeRuns text) : [c, '\n'] <:+: text := by
  induction text using run_induction with
  | run run blankRun =>
      rw [closeRuns_run blankRun] at inside
      exact pair_infix_closeRun other inside
  | more run d text blankRun visible ih =>
      have foreign := Text.not_mem_of_isBlankText (isBlankText_pair blank) visible
      rw [closeRuns_append_cons blankRun visible,
        Text.infix_append_cons_iff_of_not_mem foreign (by simp)] at inside
      rw [Text.infix_append_cons_iff_of_not_mem foreign (by simp)]
      exact inside.imp (pair_infix_closeRun other) ih

theorem closeRun_ne_nil {run : Text} (nonempty : run ≠ []) : closeRun run ≠ [] := by
  rcases closeRun_cases run with ⟨_, same⟩ | ⟨first, _, last, _, _, _, _, closed⟩
  · rwa [same]
  · simp [closed]

/-- Closing up runs brings no visible characters together. -/
theorem infix_of_infix_closeRuns {word text : Text}
    (visible : ∀ c ∈ word, Text.isBlank c = false) :
    (word <+: closeRuns text → word <+: text) ∧ (word <:+: closeRuns text → word <:+: text) := by
  induction text using run_induction generalizing word with
  | run run blank =>
      rw [closeRuns_run blank]
      have empty : word <:+: closeRun run → word = [] := fun inside =>
        Text.eq_nil_of_infix_of_isBlankText visible (isBlankText_closeRun blank) inside
      refine ⟨fun front => ?_, fun inside => ?_⟩
      · rw [empty front.isInfix]
        exact List.nil_prefix
      · rw [empty inside]
        exact List.nil_infix
  | more run c text blank noBlank ih =>
      rw [closeRuns_append_cons blank noBlank]
      cases word with
      | nil => simp
      | cons d word =>
          have foreign : ∀ {run : Text}, Text.isBlankText run → d ∉ run := fun blank =>
            Text.not_mem_of_isBlankText blank (visible d List.mem_cons_self)
          have behind : (d :: word <+: c :: closeRuns text → d :: word <+: c :: text) ∧
              (d :: word <:+: c :: closeRuns text → d :: word <:+: c :: text) := by
            refine Text.infix_cons_imp c ?_ (ih visible).2
            intro later same
            obtain ⟨rfl, rfl⟩ := List.cons.inj same
            exact (ih fun e member => visible e (List.mem_cons_of_mem d member)).1
          rw [Text.infix_append_iff_of_head_not_mem (foreign (isBlankText_closeRun blank)),
            Text.infix_append_iff_of_head_not_mem (foreign blank)]
          refine ⟨fun front => ?_, behind.2⟩
          by_cases empty : run = []
          · subst empty
            exact behind.1 front
          · exact absurd front (Text.not_prefix_append_of_head_not_mem (closeRun_ne_nil empty)
              (foreign (isBlankText_closeRun blank)) _)

/-- No run of blank characters has three line breaks. -/
def ShortRuns (text : Text) : Prop :=
  ∀ run, run <:+: text → Text.isBlankText run → run.count '\n' ≤ 2

theorem shortRuns_run_iff {run : Text} (blank : Text.isBlankText run) :
    ShortRuns run ↔ run.count '\n' ≤ 2 := by
  constructor
  · intro short
    exact short run List.infix_rfl blank
  · intro few part inside _
    exact (inside.sublist.count_le '\n').trans few

theorem shortRuns_append_cons_iff {run text : Text} {c : Char} (blank : Text.isBlankText run)
    (visible : Text.isBlank c = false) :
    ShortRuns (run ++ c :: text) ↔ run.count '\n' ≤ 2 ∧ ShortRuns text := by
  constructor
  · intro short
    refine ⟨short run (List.prefix_append run _).isInfix blank, ?_⟩
    intro part inside
    exact short part (inside.trans ⟨run ++ [c], [], by simp⟩)
  · rintro ⟨few, short⟩ part inside blankPart
    by_cases empty : part = []
    · simp [empty]
    · have foreign := Text.not_mem_of_isBlankText blankPart visible
      rcases (Text.infix_append_cons_iff_of_not_mem foreign empty).mp inside with before | after
      · exact (before.sublist.count_le '\n').trans few
      · exact short part after blankPart

/-- The texts that are left alone when runs are closed up. -/
theorem closeRuns_eq_self_iff {text : Text} : closeRuns text = text ↔ ShortRuns text := by
  induction text using run_induction with
  | run run blank => rw [closeRuns_run blank, shortRuns_run_iff blank, closeRun_eq_self_iff]
  | more run c text blank visible ih =>
      rw [closeRuns_append_cons blank visible, shortRuns_append_cons_iff blank visible,
        ← closeRun_eq_self_iff, ← ih]
      constructor
      · intro fixed
        have runs := congrArg (List.takeWhile Text.isBlank) fixed
        rw [takeWhile_run (isBlankText_closeRun blank) visible, takeWhile_run blank visible] at runs
        rw [runs] at fixed
        simpa [runs] using fixed
      · rintro ⟨run, rest⟩
        rw [run, rest]

theorem shortRuns_closeRuns (text : Text) : ShortRuns (closeRuns text) := by
  induction text using run_induction with
  | run run blank =>
      rw [closeRuns_run blank, shortRuns_run_iff (isBlankText_closeRun blank)]
      exact count_closeRun_le run
  | more run c text blank visible ih =>
      rw [closeRuns_append_cons blank visible,
        shortRuns_append_cons_iff (isBlankText_closeRun blank) visible]
      exact ⟨count_closeRun_le run, ih⟩

end Runs

section Settle

/-- Drops the spaces and tabs at line ends and closes up the runs of blank characters. -/
def settle (text : Text) : Text :=
  closeRuns (trimLineEnds text)

theorem partsAtVisible_settle : Text.PartsAtVisible settle :=
  partsAtVisible_closeRuns.comp partsAtVisible_trimLineEnds

theorem thinsLineEnds_settle (text : Text) : ThinsLineEnds text (settle text) :=
  (thinsLineEnds_trimLineEnds text).trans (thinsLineEnds_closeRuns _)

theorem settle_break {c : Char} (visible : Text.isBlank c = false) (text : Text) :
    settle ('\n' :: '\n' :: c :: text) = '\n' :: '\n' :: settle (c :: text) := by
  have noSpace : Text.isSpaceOrTab '\n' = false := by decide
  have lines : trimLineEnds ('\n' :: '\n' :: c :: text) =
      ['\n', '\n'] ++ c :: trimLineEnds text := by
    rw [← trimLineEnds_cons_of_visible visible text]
    simp [trimLineEnds.eq_2, noSpace]
  have runs : closeRun ['\n', '\n'] = ['\n', '\n'] := by decide
  rw [settle, lines, closeRuns_append_cons (by decide) visible, runs, settle,
    trimLineEnds_cons_of_visible visible, partsAtVisible_closeRuns.cons visible]
  rfl

theorem infix_of_infix_settle {word text : Text} (visible : ∀ c ∈ word, Text.isBlank c = false)
    (inside : word <:+: settle text) : word <:+: text :=
  (infix_of_infix_trimLineEnds visible).2 ((infix_of_infix_closeRuns visible).2 inside)

end Settle

end Layout
end DollarMath
