import DollarMath.Proofs.Text.Substitution
import Mathlib.Data.List.Pairwise

/-!
# Places of occurrences

Reading a text from left to right covers it with occurrences and with single characters at which
none starts.  So occurrences stand behind one another and do not overlap, each of them is read where
it stands, and what can be read at an offset is an occurrence unless one reaches across the offset.
-/

namespace DollarMath
namespace Pattern

variable {α : Type} (pattern : Pattern α) {text rest : Text} {occurrence : α}
  {place other : Nat × α}

/-- The offset behind an occurrence. -/
def stop (place : Nat × α) : Nat :=
  place.1 + (pattern.source place.2).length

theorem lt_stop (place : Nat × α) : place.1 < pattern.stop place := by
  have positive := List.length_pos_iff.mpr (pattern.source_ne_nil place.2)
  rw [stop]
  omega

section Located

variable {offset : Nat} {pieces : List (Piece α)}

theorem le_of_mem_located (member : place ∈ pattern.located offset pieces) :
    offset ≤ place.1 := by
  induction pieces generalizing offset with
  | nil => simp [located] at member
  | cons piece pieces ih =>
      cases piece with
      | plain c => exact (Nat.le_succ offset).trans (ih member)
      | found occurrence =>
          rcases List.mem_cons.mp member with rfl | member
          · exact Nat.le_refl offset
          · exact (Nat.le_add_right _ _).trans (ih member)

theorem located_pairwise (offset : Nat) (pieces : List (Piece α)) :
    (pattern.located offset pieces).Pairwise fun earlier later =>
      pattern.stop earlier ≤ later.1 := by
  induction pieces generalizing offset with
  | nil => exact .nil
  | cons piece pieces ih =>
      cases piece with
      | plain c => exact ih (offset + 1)
      | found occurrence =>
          exact .cons (fun _ member => pattern.le_of_mem_located member) (ih _)

theorem exists_read?_of_mem_located (offset : Nat)
    (member : place ∈ pattern.located offset (pattern.pieces text)) :
    ∃ left right rest, text = left ++ right ∧ offset + left.length = place.1 ∧
      pattern.read? right = some (place.2, rest) := by
  fun_induction pattern.pieces text generalizing offset with
  | case1 => simp [located] at member
  | case2 c text absent ih =>
      obtain ⟨left, right, rest, rfl, stands, read⟩ := ih (offset + 1) member
      refine ⟨c :: left, right, rest, rfl, ?_, read⟩
      rw [List.length_cons]
      omega
  | case3 c text occurrence behind read ih =>
      rcases List.mem_cons.mp member with rfl | member
      · exact ⟨[], c :: text, behind, rfl, rfl, read⟩
      · obtain ⟨left, right, rest, parts, stands, later⟩ := ih _ member
        refine ⟨pattern.source occurrence ++ left, right, rest, ?_, ?_, later⟩
        · rw [pattern.eq_of_read? read, parts, List.append_assoc]
        · rw [List.length_append]
          omega

theorem mem_located_of_read? (offset distance : Nat)
    (read : pattern.read? (text.drop distance) = some (occurrence, rest))
    (uncovered : ∀ place ∈ pattern.located offset (pattern.pieces text),
      place.1 < offset + distance → pattern.stop place ≤ offset + distance) :
    (offset + distance, occurrence) ∈ pattern.located offset (pattern.pieces text) := by
  fun_induction pattern.pieces text generalizing offset distance with
  | case1 => simp at read
  | case2 c text absent ih =>
      cases distance with
      | zero =>
          rw [List.drop_zero, absent] at read
          cases read
      | succ distance =>
          have moved : offset + 1 + distance = offset + (distance + 1) := by omega
          rw [List.drop_succ_cons] at read
          have later := ih (offset + 1) distance read
          rw [moved] at later
          exact later uncovered
  | case3 c text here behind found ih =>
      rw [located] at uncovered ⊢
      by_cases front : distance = 0
      · subst front
        rw [List.drop_zero, found] at read
        cases read
        exact List.mem_cons_self
      · rw [List.forall_mem_cons] at uncovered
        have width := uncovered.1 (by simp only; omega)
        simp only [stop] at width
        have moved : offset + (pattern.source here).length +
            (distance - (pattern.source here).length) = offset + distance := by omega
        have skipped : (c :: text).drop distance =
            behind.drop (distance - (pattern.source here).length) := by
          rw [pattern.eq_of_read? found, List.drop_append, List.drop_of_length_le (by omega),
            List.nil_append]
        rw [skipped] at read
        have later := ih (offset + (pattern.source here).length)
          (distance - (pattern.source here).length) read
        rw [moved] at later
        exact List.mem_cons_of_mem _ (later uncovered.2)

end Located

theorem exists_read?_of_mem_places (member : place ∈ pattern.places text) :
    ∃ left right rest, text = left ++ right ∧ left.length = place.1 ∧
      pattern.read? right = some (place.2, rest) := by
  obtain ⟨left, right, rest, parts, stands, read⟩ := pattern.exists_read?_of_mem_located 0 member
  exact ⟨left, right, rest, parts, by omega, read⟩

/-- What can be read where no occurrence reaches across is an occurrence. -/
theorem mem_places_of_read? {offset : Nat}
    (read : pattern.read? (text.drop offset) = some (occurrence, rest))
    (uncovered : ∀ place ∈ pattern.places text,
      place.1 < offset → pattern.stop place ≤ offset) :
    (offset, occurrence) ∈ pattern.places text := by
  have located := pattern.mem_located_of_read? 0 offset read
  rw [Nat.zero_add] at located
  exact located uncovered

/-- Occurrences stand behind one another. -/
theorem places_pairwise (text : Text) :
    (pattern.places text).Pairwise fun earlier later => pattern.stop earlier ≤ later.1 :=
  pattern.located_pairwise 0 _

theorem eq_or_apart (member : place ∈ pattern.places text) (member' : other ∈ pattern.places text) :
    place = other ∨ pattern.stop place ≤ other.1 ∨ pattern.stop other ≤ place.1 := by
  have behind := pattern.places_pairwise text
  have apart : (pattern.places text).Pairwise fun earlier later =>
      earlier = later ∨ pattern.stop earlier ≤ later.1 ∨ pattern.stop later ≤ earlier.1 :=
    behind.imp fun stands => .inr (.inl stands)
  exact apart.forall_of_forall_of_flip (fun _ _ => .inl rfl)
    (behind.imp fun stands => .inr (.inr stands)) member member'

end Pattern
end DollarMath
