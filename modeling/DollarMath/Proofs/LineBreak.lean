import DollarMath.Proofs.Markup.Run
import DollarMath.Proofs.Markup.Seam

/-!
# Line breaks of a normalised text

Normalising a text keeps its visible characters, so that the runs of blank characters between them
correspond.  Trimming line ends takes no line break from a run, and closing up the runs takes all
but two; both are told run by run.  The markers keep their places among the visible characters, so
that the runs correspond within each chunk as well.  Tightening then edits the first run of a block
and, where the block is closed, its last one: the runs that stand directly behind an opening and
directly before a closing marker.
-/

namespace DollarMath
namespace Layout

open Text

section Settle

/-- A run keeps its line breaks, and of more than two it keeps two. -/
def KeepsBreaks (run run' : Text) : Prop :=
  run'.count '\n' = min (run.count '\n') 2

theorem runs_closeRuns (text : Text) : runs (closeRuns text) = (runs text).map closeRun := by
  induction text using run_induction with
  | run run blank =>
      rw [closeRuns_run blank, runs_of_isBlankText blank,
        runs_of_isBlankText (isBlankText_closeRun blank)]
      rfl
  | more run c text blank visible ih =>
      rw [closeRuns_append_cons blank visible, runs_run_cons (isBlankText_closeRun blank) visible,
        runs_run_cons blank visible, ih, List.map_cons]

theorem forall₂_runs_trimLineEnds (text : Text) :
    List.Forall₂ (fun run run' => run'.count '\n' = run.count '\n')
      (runs text) (runs (trimLineEnds text)) := by
  induction text with
  | nil => exact .cons rfl .nil
  | cons c text ih =>
      cases blank : isBlank c with
      | false =>
          rw [trimLineEnds_cons_of_visible blank, runs_cons_of_visible blank,
            runs_cons_of_visible blank]
          exact .cons rfl ih
      | true =>
          rw [trimLineEnds, runs_cons_of_isBlank blank]
          split
          · rename_i spare
            have noBreak : c ≠ '\n' := by
              rintro rfl
              exact absurd spare (by simp [isSpaceOrTab])
            have kept := Marker.forall₂_modifyHead (f := (c :: ·)) (g := id) ih fun same =>
              same.trans (List.count_cons_of_ne noBreak).symm
            rwa [List.modifyHead_id] at kept
          · rw [runs_cons_of_isBlank blank]
            refine Marker.forall₂_modifyHead ih fun same => ?_
            rw [List.count_cons, List.count_cons, same]

theorem forall₂_runs_settle (text : Text) :
    List.Forall₂ KeepsBreaks (runs text) (runs (settle text)) := by
  rw [settle, runs_closeRuns, List.forall₂_map_right_iff]
  refine (forall₂_runs_trimLineEnds text).imp fun run run' same => ?_
  rw [KeepsBreaks, count_closeRun, same]

/-- The runs of a text and of the settled text correspond chunk by chunk. -/
theorem forall₂_runs_chunks (text : Text) :
    List.Forall₂ (fun chunk chunk' => List.Forall₂ KeepsBreaks (runs chunk) (runs chunk'))
      (Marker.chunks text) (Marker.chunks (settle text)) := by
  refine forall₂_runs_of_join ?_ (Marker.chunks_ne_nil text) ?_
  · have settled := Marker.KeepsMarkers.of_thinsLineEnds (thinsLineEnds_settle text)
    refine settled.forall₂_chunks.imp fun chunk chunk' keeps => ?_
    rw [length_runs, length_runs, keeps.filter_eq fun _ => rfl]
  · rw [Marker.join_chunks, Marker.join_chunks]
    exact forall₂_runs_settle text

end Settle

section Tighten

variable {markers : List Nat} {start : Nat}

/-- The run stands directly behind a marker that opens a block. -/
def BehindOpening (markers : List Nat) (run : Run) : Prop :=
  ∃ index marker, markers[2 * index]? = some marker ∧ run.start = marker + 2

/-- The run stands directly before a marker that closes a block. -/
def BeforeClosing (markers : List Nat) (run : Run) : Prop :=
  ∃ index, markers[2 * index + 1]? = some run.stop

/-- A run keeps its line breaks unless a block starts before it or ends behind it. -/
def KeepsBreaksAmong (markers : List Nat) (run : Run) (run' : Text) : Prop :=
  ¬ BehindOpening markers run → ¬ BeforeClosing markers run → KeepsBreaks run.blanks run'

theorem KeepsBreaksAmong.behind {run : Run} {run' : Text} (first second : Nat)
    (keeps : KeepsBreaksAmong markers run run') :
    KeepsBreaksAmong (first :: second :: markers) run run' := by
  intro opening closing
  exact keeps (fun ⟨index, marker, here, stands⟩ => opening ⟨index + 1, marker, here, stands⟩)
    fun ⟨index, here⟩ => closing ⟨index + 1, here⟩

theorem forall₂_placed {before after : List Text} (keeps : List.Forall₂ KeepsBreaks before after)
    (markers : List Nat) (start : Nat) :
    List.Forall₂ (KeepsBreaksAmong markers) (placed start before) after := by
  induction keeps generalizing start with
  | nil => exact .nil
  | cons here _ ih => exact .cons (fun _ _ => here) (ih _)

theorem forall₂_placed_modifyHead {before after : List Text} {marker : Nat}
    (keeps : List.Forall₂ (KeepsBreaksAmong markers) (placed (marker + 2) before) after)
    (opening : ∃ index, markers[2 * index]? = some marker) (edit : Text → Text) :
    List.Forall₂ (KeepsBreaksAmong markers) (placed (marker + 2) before)
      (after.modifyHead edit) := by
  obtain ⟨index, here⟩ := opening
  cases before with
  | nil =>
      obtain rfl := List.forall₂_nil_left_iff.mp keeps
      exact .nil
  | cons run before =>
      obtain _ | ⟨_, later⟩ := keeps
      exact .cons (fun opening _ => absurd ⟨index, marker, here, rfl⟩ opening) later

theorem forall₂_placed_concat {text : Text} {after : List Text} {last : Text}
    (keeps : List.Forall₂ (KeepsBreaksAmong markers) (placed start (runs text)) (after ++ [last]))
    (closing : ∃ index, markers[2 * index + 1]? = some (start + text.length)) (last' : Text) :
    List.Forall₂ (KeepsBreaksAmong markers) (placed start (runs text)) (after ++ [last']) := by
  obtain ⟨index, here⟩ := closing
  induction text using run_induction generalizing start after with
  | run run blank =>
      rw [runs_of_isBlankText blank, placed, placed] at keeps ⊢
      cases after with
      | nil => exact .cons (fun _ closing => absurd ⟨index, here⟩ closing) .nil
      | cons first after =>
          obtain _ | ⟨_, later⟩ := keeps
          exact absurd later.length_eq (by simp)
  | more run c text blank visible ih =>
      have place : start + (run ++ c :: text).length = start + run.length + 1 + text.length := by
        rw [List.length_append, List.length_cons]
        omega
      rw [place] at here
      rw [runs_run_cons blank visible, placed] at keeps ⊢
      cases after with
      | nil =>
          obtain ⟨first, rest, parts⟩ := List.exists_cons_of_ne_nil (runs_ne_nil text)
          rw [parts] at keeps
          obtain _ | ⟨_, later⟩ := keeps
          exact absurd later.length_eq (by simp [placed])
      | cons first after =>
          obtain _ | ⟨front, later⟩ := keeps
          exact .cons front (ih later here)

/-- Dropping leading breaks edits the first run. -/
theorem runs_dropLeadingBreaks (text : Text) :
    runs (dropLeadingBreaks text) = (runs text).modifyHead behindBreaks := by
  induction text using run_induction with
  | run run blank =>
      have all := isBlankText_iff.mp blank
      rw [dropLeadingBreaks, List.takeWhile_eq_self_iff.mpr all, List.dropWhile_eq_nil_iff.mpr all,
        List.append_nil, runs_of_isBlankText (isBlankText_behindBreaks blank),
        runs_of_isBlankText blank]
      rfl
  | more run c text blank visible _ =>
      rw [dropLeadingBreaks, takeWhile_run blank visible,
        List.dropWhile_append_of_pos (isBlankText_iff.mp blank),
        List.dropWhile_cons_of_neg (by simp [visible]),
        runs_run_cons (isBlankText_behindBreaks blank) visible, runs_run_cons blank visible,
        List.modifyHead_cons]

/-- Dropping trailing breaks edits the last run. -/
theorem exists_runs_dropTrailingBreaks (text : Text) :
    ∃ front last last', runs text = front ++ [last] ∧
      runs (dropTrailingBreaks text) = front ++ [last'] := by
  rcases dropTrailingBreaks_cases text with ⟨_, same⟩ | ⟨rest, run, blank, _, parts, dropped⟩
  · obtain ⟨front, last, whole, _⟩ := exists_runs_append (by decide : isBlankText []) text
    exact ⟨front, last, last, whole, by rw [same, whole]⟩
  · have blank' : isBlankText ('\n' :: run) :=
      isBlankText_append (by decide : isBlankText ['\n']) blank
    obtain ⟨front, last, whole, longer⟩ := exists_runs_append blank' rest
    exact ⟨front, last ++ '\n' :: run, last, by rw [parts, longer], by rw [dropped, whole]⟩

theorem forall₂_placed_block {opening : Nat} {chunk chunk' : Text}
    (opens : ∃ index, markers[2 * index]? = some opening)
    (closes : ∃ index, markers[2 * index + 1]? = some (opening + 2 + chunk.length))
    (keeps : List.Forall₂ KeepsBreaks (runs chunk) (runs chunk')) :
    List.Forall₂ (KeepsBreaksAmong markers) (placed (opening + 2) (runs chunk))
      (runs (dropTrailingBreaks (dropLeadingBreaks chunk'))) := by
  obtain ⟨front, last, last', whole, dropped⟩ :=
    exists_runs_dropTrailingBreaks (dropLeadingBreaks chunk')
  have lead := forall₂_placed_modifyHead (forall₂_placed keeps markers (opening + 2)) opens
    behindBreaks
  rw [← runs_dropLeadingBreaks, whole] at lead
  rw [dropped]
  exact forall₂_placed_concat lead closes last'

/-- Tightening takes line breaks only where the markers of blocks stand. -/
theorem forall₂_placed_tightenBlocks {chunks settled : List Text}
    (keeps : List.Forall₂
      (fun chunk chunk' => List.Forall₂ KeepsBreaks (runs chunk) (runs chunk')) chunks settled)
    (start : Nat) :
    List.Forall₂ (KeepsBreaksAmong (Marker.offsetsOf start chunks))
      (placed start (runs (Marker.join chunks))) (runs (Marker.join (tightenBlocks settled))) := by
  have between : ∀ markers place, KeepsBreaksAmong markers ⟨place, []⟩ [] := fun _ _ _ _ => rfl
  fun_induction tightenBlocks settled generalizing chunks start with
  | case1 =>
      obtain rfl := List.forall₂_nil_right_iff.mp keeps
      exact .cons (between _ _) .nil
  | case2 outside =>
      obtain _ | ⟨here, _ | _⟩ := keeps
      rw [Marker.join_singleton, Marker.join_singleton]
      exact forall₂_placed here _ _
  | case3 outside unclosed =>
      obtain _ | ⟨here, _ | ⟨inside, _ | _⟩⟩ := keeps
      rw [placed_runs_join_cons _ _ (List.cons_ne_nil _ _), runs_join_cons _ (List.cons_ne_nil _ _),
        Marker.join_singleton, Marker.join_singleton, runs_dropLeadingBreaks]
      refine List.rel_append (forall₂_placed here _ _) (.cons (between _ _) ?_)
      exact forall₂_placed_modifyHead (forall₂_placed inside _ _) ⟨0, rfl⟩ _
  | case4 outside inside settled more ih =>
      obtain _ | ⟨here, _ | ⟨block, later⟩⟩ := keeps
      have rest : settled ≠ [] := by simpa using more
      have rest' := ne_nil_of_forall₂ later rest
      rw [Marker.offsetsOf_cons _ _ (List.cons_ne_nil _ _), Marker.offsetsOf_cons _ _ rest',
        placed_runs_join_cons _ _ (List.cons_ne_nil _ _), placed_runs_join_cons _ _ rest',
        runs_join_cons _ (List.cons_ne_nil _ _), runs_join_cons _ (tightenBlocks_ne_nil rest)]
      refine List.rel_append (forall₂_placed here _ _) (.cons (between _ _) ?_)
      refine List.rel_append (forall₂_placed_block ⟨0, rfl⟩ ⟨0, rfl⟩ block)
        (.cons (between _ _) ?_)
      exact (ih later _).imp fun _ _ => .behind _ _

end Tighten

/-- Normalising a text keeps its visible characters, and a run of blank characters between them
keeps its line breaks, two of them at most, unless a block starts directly before it or ends
directly behind it. -/
theorem normalize_keeps_breaks (text : Text) :
    (normalize text).filter (!isBlank ·) = text.filter (!isBlank ·) ∧
      List.Forall₂ (fun run run' =>
          ¬ BehindOpening (Marker.offsets text) run → ¬ BeforeClosing (Marker.offsets text) run →
            run'.count '\n' = min (run.blanks.count '\n') 2)
        (placed 0 (runs text)) (runs (normalize text)) := by
  refine ⟨filter_normalize (fun c blank => by simp [blank]) text, ?_⟩
  have tight := forall₂_placed_tightenBlocks (forall₂_runs_chunks text) 0
  rwa [Marker.join_chunks, ← Marker.offsets_eq_offsetsOf, ← normalize_eq] at tight

/-- The runs at the ends of a block lose their breaks, and one in the middle of it keeps two. -/
example : normalize "a\n \n\t\nb\n$$\n\nx\n\n\n\ny\n$$\n" =
    Text.ofString "a\n\nb\n$$x\n\ny$$\n" := by
  decide +kernel

end Layout
end DollarMath
