import DollarMath.Proofs.Prose

/-!
# Balanced braces

The depth of a text is the number of braces that it opens and does not close.  Only one stage
touches braces, and what it takes off an occurrence is an opening brace before a content that
closes none and a closing brace behind it.  So it keeps the depth, and wherever the result is cut,
the front is as deep as some front of the text was: a balanced text stays balanced.
-/

namespace DollarMath
namespace Text

/-- The number of opening braces of a text, less the number of closing ones. -/
def depth (text : Text) : Int :=
  (text.count '\x7b' : Int) - text.count '\x7d'

@[simp]
theorem depth_append (left right : Text) : depth (left ++ right) = depth left + depth right := by
  simp only [depth, List.count_append]
  omega

theorem depth_filter_isBrace (text : Text) : depth (text.filter isBrace) = depth text := by
  rw [depth, List.count_filter (by decide), List.count_filter (by decide), depth]

theorem depth_nonneg {text : Text} (unclosed : '\x7d' ∉ text) : 0 ≤ depth text := by
  rw [depth, List.count_eq_zero_of_not_mem unclosed]
  omega

/-- A text in which every brace is closed behind the place where it was opened. -/
structure IsBalanced (text : Text) : Prop where
  /-- No front of the text closes more braces than it opens. -/
  opened : ∀ front, front <+: text → front.count '\x7d' ≤ front.count '\x7b'
  /-- The text opens and closes the same number of braces. -/
  closed : text.count '\x7b' = text.count '\x7d'

theorem isBalanced_iff {text : Text} :
    IsBalanced text ↔ (∀ front, front <+: text → 0 ≤ depth front) ∧ depth text = 0 := by
  constructor
  · rintro ⟨opened, closed⟩
    refine ⟨fun front part => ?_, ?_⟩
    · have more := opened front part
      rw [depth]
      omega
    · rw [depth, closed, Int.sub_self]
  · rintro ⟨opened, closed⟩
    refine ⟨fun front part => ?_, ?_⟩
    · have nonneg := opened front part
      rw [depth] at nonneg
      omega
    · rw [depth] at closed
      omega

instance : DecidablePred IsBalanced := fun text =>
  decidable_of_iff ((∀ front ∈ text.inits, 0 ≤ depth front) ∧ depth text = 0) <| by
    simp only [isBalanced_iff, List.mem_inits]

/-- Two texts of one depth, of which the second has no front that is less deep than all fronts of
the first. -/
structure KeepsDepth (before after : Text) : Prop where
  /-- The texts have the same depth. -/
  depth_eq : depth after = depth before
  /-- No front is less deep than all fronts were. -/
  exists_front : ∀ front, front <+: after → ∃ front', front' <+: before ∧ depth front' ≤ depth front

namespace KeepsDepth

variable {before after : Text}

theorem refl (text : Text) : KeepsDepth text text :=
  ⟨rfl, fun front part => ⟨front, part, Int.le_refl _⟩⟩

theorem trans {last : Text} (first : KeepsDepth before after) (second : KeepsDepth after last) :
    KeepsDepth before last where
  depth_eq := second.depth_eq.trans first.depth_eq
  exists_front front part := by
    obtain ⟨middle, partMiddle, lower⟩ := second.exists_front front part
    obtain ⟨front', part', lower'⟩ := first.exists_front middle partMiddle
    exact ⟨front', part', Int.le_trans lower' lower⟩

theorem append {before' after' : Text} (left : KeepsDepth before after)
    (right : KeepsDepth before' after') : KeepsDepth (before ++ before') (after ++ after') where
  depth_eq := by rw [depth_append, depth_append, left.depth_eq, right.depth_eq]
  exists_front front part := by
    rcases List.prefix_or_prefix_of_prefix part (List.prefix_append after after') with
      inside | ⟨rest, rfl⟩
    · obtain ⟨front', part', lower⟩ := left.exists_front front inside
      exact ⟨front', part'.trans (List.prefix_append _ _), lower⟩
    · obtain ⟨rest', part', lower⟩ :=
        right.exists_front rest ((List.prefix_append_right_inj after).mp part)
      refine ⟨before ++ rest', (List.prefix_append_right_inj before).mpr part', ?_⟩
      rw [depth_append, depth_append, left.depth_eq]
      omega

/-- Texts with the same braces in the same order have the same depth at corresponding places. -/
theorem of_filter_eq (same : after.filter isBrace = before.filter isBrace) :
    KeepsDepth before after where
  depth_eq := by rw [← depth_filter_isBrace after, same, depth_filter_isBrace]
  exists_front front part := by
    have braces := part.filter isBrace
    rw [same] at braces
    obtain ⟨front', part', same'⟩ := List.prefix_filter_iff.mp braces
    have deep : depth front' = depth front := by
      rw [← depth_filter_isBrace front', ← same', depth_filter_isBrace]
    exact ⟨front', part', Int.le_of_eq deep⟩

theorem isBalanced (keeps : KeepsDepth before after) (balanced : IsBalanced before) :
    IsBalanced after := by
  rw [isBalanced_iff] at balanced ⊢
  refine ⟨fun front part => ?_, keeps.depth_eq.trans balanced.2⟩
  obtain ⟨front', part', lower⟩ := keeps.exists_front front part
  exact Int.le_trans (balanced.1 front' part') lower

end KeepsDepth
end Text

namespace Brace

/-- A content that closes no brace keeps a pair around it from closing one too early. -/
theorem depth_nonneg_of_prefix {content front : Text} (unclosed : '\x7d' ∉ content)
    (part : front <+: '\x7b' :: content ++ ['\x7d']) : 0 ≤ Text.depth front := by
  have inside : '\x7d' ∉ '\x7b' :: content := by simpa using unclosed
  rcases List.prefix_concat_iff.mp part with rfl | part
  · have pair : Text.depth ('\x7b' :: content ++ ['\x7d']) = Text.depth content := by
      have parts : '\x7b' :: content ++ ['\x7d'] = ['\x7b'] ++ (content ++ ['\x7d']) := rfl
      have opening : Text.depth ['\x7b'] = 1 := rfl
      have closing : Text.depth ['\x7d'] = -1 := rfl
      rw [parts, Text.depth_append, Text.depth_append, opening, closing]
      omega
    rw [pair]
    exact Text.depth_nonneg unclosed
  · exact Text.depth_nonneg fun member => inside (part.subset member)

/-- Dropping one of two pairs around a content that closes no brace. -/
theorem keepsDepth_enclosed (opening : Text) {content : Text} (unclosed : '\x7d' ∉ content) :
    Text.KeepsDepth (opening ++ "\x7b\x7b" ++ content ++ doubleClosing)
      (opening ++ "\x7b" ++ content ++ "\x7d") := by
  have pair : Text.KeepsDepth ("\x7b\x7b" ++ content ++ doubleClosing)
      ("\x7b" ++ content ++ "\x7d") := by
    constructor
    case depth_eq =>
      have braces : Text.depth "\x7b\x7b" = 2 ∧ Text.depth doubleClosing = -2 ∧
          Text.depth "\x7b" = 1 ∧ Text.depth "\x7d" = -1 := by decide
      simp only [Text.depth_append, braces]
      omega
    case exists_front =>
      intro front part
      exact ⟨[], List.nil_prefix, depth_nonneg_of_prefix unclosed part⟩
  simpa only [List.append_assoc] using (Text.KeepsDepth.refl opening).append pair

theorem keepsDepth_substitute (opening : Text) {allowed : Char → Bool}
    (closed : allowed '\x7d' = false) (text : Text) :
    Text.KeepsDepth text ((enclosed (opening ++ "\x7b\x7b") allowed).substitute
      (fun content => opening ++ "\x7b" ++ content ++ "\x7d") text) := by
  refine Pattern.substitute_rel _ _ (.refl []) ?_ ?_ text
  · intro c before after keeps
    exact (Text.KeepsDepth.refl [c]).append keeps
  · rintro content before after ⟨text, rest, read⟩ keeps
    refine (keepsDepth_enclosed opening fun member => ?_).append keeps
    have allowedInside := (enclosed_sound read).2 _ member
    rw [closed] at allowedInside
    cases allowedInside

theorem keepsDepth_dropDoubled (text : Text) : Text.KeepsDepth text (dropDoubled text) :=
  (keepsDepth_substitute "\\text" (by decide) text).trans
    (keepsDepth_substitute [] (by decide) _)

end Brace

theorem isUnmarkedKind_isBrace : IsUnmarkedKind Text.isBrace where
  no_blank _ blank := Text.isBrace_of_isBlank blank
  no_mark c mark := by
    simp only [Text.isMark, List.contains_eq_mem, decide_eq_true_eq, List.mem_cons,
      List.not_mem_nil, or_false] at mark
    rcases mark with rfl | rfl | rfl | rfl | rfl | rfl <;> decide

theorem isNameless_isBrace : IsNameless Text.isBrace := by
  intro c letter
  rw [← Bool.not_eq_true]
  intro brace
  simp only [Text.isBrace, Bool.or_eq_true, beq_iff_eq] at brace
  rcases brace with rfl | rfl <;> exact absurd letter (by decide)

/-- Every stage keeps the depth of braces. -/
theorem Stage.keepsDepth_apply (stage : Stage) (text : Text) :
    Text.KeepsDepth text (stage.apply text) := by
  by_cases braces : stage = .redundantBraces
  · subst braces
    exact Brace.keepsDepth_dropDoubled text
  · exact .of_filter_eq
      (isUnmarkedKind_isBrace.filter_apply braces (fun _ => isNameless_isBrace) text)

theorem Stage.keepsDepth_applyAll (stages : List Stage) (text : Text) :
    Text.KeepsDepth text (applyAll stages text) := by
  induction stages generalizing text with
  | nil => exact .refl text
  | cons stage stages ih => exact (stage.keepsDepth_apply text).trans (ih (stage.apply text))

/-- The number of opening braces less that of closing ones stays the same, and a balanced text
stays balanced. -/
theorem convert_keeps_balance (text : Text) :
    ((convert text).count '\x7b' : Int) - (convert text).count '\x7d' =
        text.count '\x7b' - text.count '\x7d' ∧
      (Text.IsBalanced text → Text.IsBalanced (convert text)) := by
  have keeps := Stage.keepsDepth_applyAll Stage.all text
  rw [← convert_eq_applyAll] at keeps
  exact ⟨keeps.depth_eq, keeps.isBalanced⟩

/-- Doubled braces behind a `\text` command, of which the inner pair is not closed first. -/
theorem convert_keeps_balance_of_nested :
    Text.IsBalanced "\\text\x7b\x7ba\x7bb\x7d\x7dc\x7d" ∧
      convert "\\text\x7b\x7ba\x7bb\x7d\x7dc\x7d" = Text.ofString "\\text\x7ba\x7bb\x7dc\x7d" ∧
      Text.IsBalanced (convert "\\text\x7b\x7ba\x7bb\x7d\x7dc\x7d") := by
  have balanced : Text.IsBalanced "\\text\x7b\x7ba\x7bb\x7d\x7dc\x7d" := by decide
  exact ⟨balanced, by decide +kernel, (convert_keeps_balance _).2 balanced⟩

end DollarMath
