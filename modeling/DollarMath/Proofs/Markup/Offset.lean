import DollarMath.Proofs.Markup.Search

/-!
# Offsets of markers

Markers stand in order, so a marker's place among them is the number of markers before its offset:
it opens a block when that number is even.
-/

namespace DollarMath
namespace Marker

variable {markers : List Nat} {index offset : Nat}

/-- In an ordered list the numbers below a bound are those with the first indices. -/
theorem lt_countP_iff (ordered : markers.Pairwise (· < ·)) (here : markers[index]? = some offset)
    (bound : Nat) : index < markers.countP (· < bound) ↔ offset < bound := by
  induction markers generalizing index with
  | nil => simp at here
  | cons first markers ih =>
      rw [List.pairwise_cons] at ordered
      by_cases below : first < bound
      · cases index with
        | zero =>
            obtain rfl := Option.some.inj here
            simp [below]
        | succ index =>
            rw [List.getElem?_cons_succ] at here
            simp [below, ih ordered.2 here]
      · have none : (first :: markers).countP (· < bound) = 0 := by
          rw [List.countP_eq_zero, List.forall_mem_cons]
          refine ⟨by simpa using below, fun marker member => ?_⟩
          have behind := ordered.1 marker member
          simp only [decide_eq_true_eq]
          omega
        have least : first ≤ offset := by
          rcases List.mem_cons.mp (List.mem_of_getElem? here) with same | member
          · omega
          · exact (ordered.1 offset member).le
        rw [none]
        omega

theorem idxOf?_eq_some_iff (ordered : markers.Pairwise (· < ·)) :
    markers.idxOf? offset = some index ↔ markers[index]? = some offset := by
  rw [List.idxOf?_eq_some_iff, List.getElem?_eq_some_iff]
  refine ⟨fun ⟨bound, here, _⟩ => ⟨bound, here⟩, fun ⟨bound, here⟩ => ⟨bound, here, ?_⟩⟩
  intro other before again
  have smaller := List.pairwise_iff_getElem.mp ordered other index (before.trans bound) bound before
  omega

theorem opensAt_iff (ordered : markers.Pairwise (· < ·)) :
    opensAt markers offset = true ↔ ∃ index, markers[2 * index]? = some offset := by
  simp only [← idxOf?_eq_some_iff ordered, opensAt]
  cases markers.idxOf? offset with
  | none => simp
  | some place =>
      simp only [decide_eq_true_eq, Option.some.injEq]
      exact ⟨fun even => ⟨place / 2, by omega⟩, fun ⟨index, same⟩ => by omega⟩

theorem closesAt_iff (ordered : markers.Pairwise (· < ·)) :
    closesAt markers offset = true ↔ ∃ index, markers[2 * index + 1]? = some offset := by
  simp only [← idxOf?_eq_some_iff ordered, closesAt]
  cases markers.idxOf? offset with
  | none => simp
  | some place =>
      simp only [decide_eq_true_eq, Option.some.injEq]
      exact ⟨fun odd => ⟨place / 2, by omega⟩, fun ⟨index, same⟩ => by omega⟩

end Marker
end DollarMath
