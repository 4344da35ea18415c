import DollarMath.Proofs.Text.Blank

/-!
# Flush texts

A flush text has visible characters at both its ends.  An edit of blank characters that looks no
further than the next visible character on each side does to a flush text what it does to it alone,
whatever stands around it.
-/

namespace DollarMath
namespace Text

/-- A text with visible characters at both ends. -/
structure IsFlush (text : Text) : Prop where
  /-- The first character is visible. -/
  first : ∃ c rest, text = c :: rest ∧ isBlank c = false
  /-- The last character is visible. -/
  last : ∃ front c, text = front ++ [c] ∧ isBlank c = false

namespace IsFlush

variable {text left right : Text}

theorem of_ends (nonempty : text ≠ []) (first : ∀ c, text.head? = some c → isBlank c = false)
    (last : ∀ c, text.getLast? = some c → isBlank c = false) : IsFlush text where
  first := by
    obtain ⟨c, rest, rfl⟩ := List.exists_cons_of_ne_nil nonempty
    exact ⟨c, rest, rfl, first c rfl⟩
  last := by
    have parts := List.dropLast_append_getLast nonempty
    exact ⟨_, _, parts.symm, last _ (List.getLast?_eq_some_getLast nonempty)⟩

theorem ne_nil (flush : IsFlush text) : text ≠ [] := by
  obtain ⟨c, rest, rfl, _⟩ := flush.first
  exact List.cons_ne_nil c rest

theorem isBlank_head (flush : IsFlush text) {c : Char} (first : text.head? = some c) :
    isBlank c = false := by
  obtain ⟨d, rest, rfl, visible⟩ := flush.first
  rwa [← Option.some.inj first]

theorem isBlank_getLast (flush : IsFlush text) {c : Char} (last : text.getLast? = some c) :
    isBlank c = false := by
  obtain ⟨front, d, rfl, visible⟩ := flush.last
  rw [List.getLast?_concat, Option.some.injEq] at last
  rwa [← last]

theorem strip_eq_self (flush : IsFlush text) : strip text = text :=
  Text.strip_eq_self (fun _ => flush.isBlank_head) fun _ => flush.isBlank_getLast

theorem of_strip (nonempty : text ≠ []) (stripped : strip text = text) : IsFlush text :=
  .of_ends nonempty (fun _ first => isBlank_head_strip (stripped.symm ▸ first))
    fun _ last => isBlank_getLast_strip (stripped.symm ▸ last)

theorem append (front : IsFlush left) (middle : Text) (behind : IsFlush right) :
    IsFlush (left ++ (middle ++ right)) where
  first := by
    obtain ⟨c, rest, rfl, visible⟩ := front.first
    exact ⟨c, rest ++ (middle ++ right), rfl, visible⟩
  last := by
    obtain ⟨rest, c, rfl, visible⟩ := behind.last
    exact ⟨left ++ (middle ++ rest), c, by simp, visible⟩

end IsFlush

/-- An edit for which a visible character parts a text: what it leaves of the text before is the
same whatever stands behind, and it edits what stands behind as if nothing stood before. -/
structure PartsAtVisible (edit : Text → Text) : Prop where
  /-- Nothing is left of nothing. -/
  nil : edit [] = []
  /-- A visible character stays between what is left of the texts around it. -/
  part : ∀ (left : Text) (c : Char), isBlank c = false →
    ∃ left', left'.Sublist left ∧ ∀ right, edit (left ++ c :: right) = left' ++ c :: edit right

namespace PartsAtVisible

variable {edit edit' : Text → Text} {text : Text}

theorem comp (second : PartsAtVisible edit') (first : PartsAtVisible edit) :
    PartsAtVisible (edit' ∘ edit) where
  nil := by rw [Function.comp_apply, first.nil, second.nil]
  part left c visible := by
    obtain ⟨middle, lessMiddle, partFirst⟩ := first.part left c visible
    obtain ⟨left', less, partSecond⟩ := second.part middle c visible
    refine ⟨left', less.trans lessMiddle, fun right => ?_⟩
    rw [Function.comp_apply, partFirst, partSecond, Function.comp_apply]

theorem cons (parts : PartsAtVisible edit) {c : Char} (visible : isBlank c = false)
    (right : Text) : edit (c :: right) = c :: edit right := by
  obtain ⟨left', less, part⟩ := parts.part [] c visible
  rw [List.sublist_nil.mp less] at part
  exact part right

theorem append (parts : PartsAtVisible edit) (flush : IsFlush text) (right : Text) :
    edit (text ++ right) = edit text ++ edit right := by
  obtain ⟨front, c, rfl, visible⟩ := flush.last
  obtain ⟨front', _, part⟩ := parts.part front c visible
  rw [List.append_assoc, List.singleton_append, part, part, parts.nil]
  simp

/-- What is left of the text before a flush text does not depend on what stands behind. -/
theorem exists_left (parts : PartsAtVisible edit) (left : Text) (flush : IsFlush text) :
    ∃ left', left'.Sublist left ∧
      ∀ right, edit (left ++ (text ++ right)) = left' ++ edit (text ++ right) := by
  obtain ⟨c, rest, rfl, visible⟩ := flush.first
  obtain ⟨left', less, part⟩ := parts.part left c visible
  refine ⟨left', less, fun right => ?_⟩
  rw [List.cons_append, part, parts.cons visible]

theorem isFlush (parts : PartsAtVisible edit) (flush : IsFlush text) : IsFlush (edit text) where
  first := by
    obtain ⟨c, rest, rfl, visible⟩ := flush.first
    exact ⟨c, edit rest, parts.cons visible rest, visible⟩
  last := by
    obtain ⟨front, c, rfl, visible⟩ := flush.last
    obtain ⟨front', _, part⟩ := parts.part front c visible
    exact ⟨front', c, by rw [part, parts.nil], visible⟩

end PartsAtVisible
end Text
end DollarMath
