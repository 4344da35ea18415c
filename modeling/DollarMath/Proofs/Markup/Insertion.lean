import DollarMath.Markup.Marker
import Mathlib.Data.List.Basic

/-!
# Inserted markers

Block markers are put into a text at given offsets.  Each marker that was put in moves those behind
it on by its length; cut at the moved offsets, the text falls into the pieces that it was made of.
-/

namespace DollarMath
namespace Marker

/-- A text with a block marker put in at each of the given offsets; the first character of the text
has the offset `start`. -/
def insertAt (start : Nat) (text : Text) : List Nat → Text
  | [] => text
  | offset :: offsets =>
      text.take (offset - start) ++
        (Delimiter.blockMarker ++ insertAt offset (text.drop (offset - start)) offsets)

/-- Where the markers that were put in at the given offsets stand in the result, when they are moved
on by `distance` before the first of them. -/
def inserted (distance : Nat) : List Nat → List Nat
  | [] => []
  | offset :: offsets => (offset + distance) :: inserted (distance + 2) offsets

variable {start : Nat} {text : Text} {offsets : List Nat}

theorem insertAt_here (start : Nat) (text : Text) (offsets : List Nat) :
    insertAt start text (start :: offsets) =
      Delimiter.blockMarker ++ insertAt start text offsets := by
  simp [insertAt]

theorem insertAt_append (front text : Text)
    (behind : ∀ offset ∈ offsets, start + front.length ≤ offset) :
    insertAt start (front ++ text) offsets =
      front ++ insertAt (start + front.length) text offsets := by
  cases offsets with
  | nil => rfl
  | cons offset offsets =>
      have bound := behind offset List.mem_cons_self
      have width : offset - start = front.length + (offset - (start + front.length)) := by omega
      rw [insertAt, insertAt, width, List.take_length_add_append, List.drop_length_add_append,
        List.append_assoc]

/-- Taking the markers out again gives the text. -/
theorem flatten_cutAt_insertAt (ordered : offsets.Pairwise (· ≤ ·))
    (within : ∀ offset ∈ offsets, start ≤ offset ∧ offset ≤ start + text.length)
    (distance : Nat) :
    (cutAt (start + distance) (insertAt start text offsets) (inserted distance offsets)).flatten =
      text := by
  induction offsets generalizing start text distance with
  | nil => simp [insertAt, inserted, cutAt]
  | cons offset offsets ih =>
      rw [List.pairwise_cons] at ordered
      obtain ⟨before, bound⟩ := within offset List.mem_cons_self
      have length : (text.take (offset - start)).length = offset - start := by
        rw [List.length_take]
        omega
      have width : offset + distance - (start + distance) = offset - start := by omega
      have moved : offset + distance + 2 = offset + (distance + 2) := by omega
      have later : ∀ next ∈ offsets,
          offset ≤ next ∧ next ≤ offset + (text.drop (offset - start)).length := by
        intro next member
        have bound := (within next (List.mem_cons_of_mem _ member)).2
        refine ⟨ordered.1 next member, ?_⟩
        rw [List.length_drop]
        omega
      rw [inserted, cutAt, width, insertAt, moved, List.flatten_cons]
      have cut : ∀ rest : Text, (text.take (offset - start) ++
          (Delimiter.blockMarker ++ rest)).drop (offset - start + 2) = rest := by
        intro rest
        rw [← List.drop_drop, List.drop_left' length]
        rfl
      rw [List.take_left' length, cut, ih ordered.2 later, List.take_append_drop]

end Marker
end DollarMath
