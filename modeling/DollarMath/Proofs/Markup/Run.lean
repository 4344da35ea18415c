import DollarMath.Proofs.Markup.BlankRun
import DollarMath.Proofs.Markup.Chunk
import Mathlib.Data.List.Forall2

/-!
# Runs between visible characters

The blank characters of a text fall into runs, one before each visible character and one behind the
last of them.  The runs of a text that is put together of two texts and a visible character are the
runs of the two; so the runs of a text are those of its chunks, with an empty one between the two
dollars of each marker.
-/

namespace DollarMath
namespace Text

section Runs

variable {run text : Text} {c : Char}

/-- The runs of blank characters in a text, one before each visible character and one behind the
last of them.  They may be empty. -/
def runs (text : Text) : List Text :=
  text.splitOnP (!isBlank ·)

theorem runs_ne_nil (text : Text) : runs text ≠ [] :=
  List.splitOnP_ne_nil _ text

theorem runs_of_isBlankText (blank : isBlankText run) : runs run = [run] :=
  List.splitOnP_eq_singleton fun c member => by simp [isBlankText_iff.mp blank c member]

theorem runs_append_cons (visible : isBlank c = false) (left right : Text) :
    runs (left ++ c :: right) = runs left ++ runs right :=
  List.splitOnP_append_cons left right (by simp [visible])

theorem runs_run_cons (blank : isBlankText run) (visible : isBlank c = false) (text : Text) :
    runs (run ++ c :: text) = run :: runs text := by
  rw [runs_append_cons visible, runs_of_isBlankText blank, List.singleton_append]

theorem runs_cons_of_visible (visible : isBlank c = false) (text : Text) :
    runs (c :: text) = [] :: runs text :=
  runs_append_cons visible [] text

theorem runs_cons_of_isBlank (blank : isBlank c) (text : Text) :
    runs (c :: text) = (runs text).modifyHead (c :: ·) := by
  rw [runs, List.splitOnP_cons_eq_if_modifyHead, if_neg (by simp [blank]), runs]

theorem length_runs (text : Text) : (runs text).length = (text.filter (!isBlank ·)).length + 1 := by
  induction text with
  | nil => rfl
  | cons c text ih =>
      cases blank : isBlank c with
      | true => simp [runs_cons_of_isBlank blank, blank, ih]
      | false => simp [runs_cons_of_visible blank, blank, ih]

/-- Blank characters behind a text lengthen its last run. -/
theorem exists_runs_append {trail : Text} (blankTrail : isBlankText trail) (text : Text) :
    ∃ front last, runs text = front ++ [last] ∧
      runs (text ++ trail) = front ++ [last ++ trail] := by
  induction text using Layout.run_induction with
  | run run blank =>
      exact ⟨[], run, runs_of_isBlankText blank,
        runs_of_isBlankText (isBlankText_append blank blankTrail)⟩
  | more run c text blank visible ih =>
      obtain ⟨front, last, whole, longer⟩ := ih
      refine ⟨run :: front, last, ?_, ?_⟩
      · rw [runs_run_cons blank visible, whole, List.cons_append]
      · rw [List.append_assoc, List.cons_append, runs_run_cons blank visible, longer,
          List.cons_append]

end Runs

/-- A run of blank characters at its place in a text. -/
structure Run where
  /-- The offset of the run. -/
  start : Nat
  /-- The blank characters. -/
  blanks : Text

/-- The offset behind the run. -/
def Run.stop (run : Run) : Nat :=
  run.start + run.blanks.length

/-- Runs with one visible character between each two, the first of which stands at `start`. -/
def placed (start : Nat) : List Text → List Run
  | [] => []
  | blanks :: runs => ⟨start, blanks⟩ :: placed (start + blanks.length + 1) runs

section Placed

/-- Behind the runs of a text and one visible character stand those of the next text. -/
theorem placed_runs_append (start : Nat) (text : Text) (behind : List Text) :
    placed start (runs text ++ behind) =
      placed start (runs text) ++ placed (start + text.length + 1) behind := by
  induction text using Layout.run_induction generalizing start with
  | run run blank =>
      rw [runs_of_isBlankText blank]
      rfl
  | more run c text blank visible ih =>
      have place : start + run.length + 1 + text.length + 1 =
          start + (run ++ c :: text).length + 1 := by
        rw [List.length_append, List.length_cons]
        omega
      rw [runs_run_cons blank visible, List.cons_append, placed, placed, ih, place,
        List.cons_append]

theorem runs_join_cons (chunk : Text) {chunks : List Text} (nonempty : chunks ≠ []) :
    runs (Marker.join (chunk :: chunks)) = runs chunk ++ [] :: runs (Marker.join chunks) := by
  rw [Marker.join_cons _ nonempty, runs_append_cons (by decide), runs_cons_of_visible (by decide)]

theorem placed_runs_join_cons (start : Nat) (chunk : Text) {chunks : List Text}
    (nonempty : chunks ≠ []) :
    placed start (runs (Marker.join (chunk :: chunks))) =
      placed start (runs chunk) ++ ⟨start + chunk.length + 1, []⟩ ::
        placed (start + chunk.length + 2) (runs (Marker.join chunks)) := by
  rw [runs_join_cons _ nonempty, placed_runs_append, placed]
  rfl

theorem ne_nil_of_forall₂ {related : Text → Text → Prop} {before after : List Text}
    (same : List.Forall₂ related before after) (nonempty : after ≠ []) : before ≠ [] := by
  rintro rfl
  exact nonempty (List.forall₂_nil_left_iff.mp same)

/-- Where joined chunks have corresponding runs, and as many in each chunk, the runs of the chunks
correspond. -/
theorem forall₂_runs_of_join {related : Text → Text → Prop} {before after : List Text}
    (counts : List.Forall₂ (fun chunk chunk' => (runs chunk').length = (runs chunk).length)
      before after)
    (nonempty : before ≠ [])
    (whole : List.Forall₂ related (runs (Marker.join before)) (runs (Marker.join after))) :
    List.Forall₂ (fun chunk chunk' => List.Forall₂ related (runs chunk) (runs chunk'))
      before after := by
  induction counts with
  | nil => exact .nil
  | @cons chunk chunk' before after here later ih =>
      by_cases more : after = []
      · subst more
        obtain rfl := List.forall₂_nil_right_iff.mp later
        rw [Marker.join_singleton, Marker.join_singleton] at whole
        exact .cons whole .nil
      · have more' := ne_nil_of_forall₂ later more
        rw [runs_join_cons _ more', runs_join_cons _ more] at whole
        have front := List.forall₂_take_append _ _ _ whole
        have behind := List.forall₂_drop_append _ _ _ whole
        rw [List.take_left' here.symm] at front
        rw [List.drop_left' here.symm] at behind
        obtain _ | ⟨_, behind⟩ := behind
        exact .cons front (ih more' behind)

end Placed

end Text

end DollarMath
