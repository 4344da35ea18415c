import DollarMath.Markup.Brace
import DollarMath.Proofs.Text.Thinning
import Mathlib.Data.List.TakeWhile

/-!
# Doubled braces

Dropping one of two pairs of braces merges neighbouring equal braces and does nothing else.  It
leaves exactly those texts alone that have no doubled pair around a content of the right kind.
-/

namespace DollarMath
namespace Brace

section Enclosed

variable {opening : Text} {allowed : Char → Bool}

/-- Content of allowed characters is read up to the braces behind it. -/
theorem enclosed_read?_append (closed : allowed '\x7d' = false) {content : Text}
    (nonempty : content ≠ []) (inside : ∀ c ∈ content, allowed c) (rest : Text) :
    (enclosed opening allowed).read? (opening ++ content ++ doubleClosing ++ rest) =
      some (content, rest) := by
  have stop : ¬ allowed '\x7d' := by simp [closed]
  have front : (content ++ (doubleClosing ++ rest)).takeWhile allowed = content := by
    rw [List.takeWhile_append_of_pos inside]
    change content ++ ('\x7d' :: _).takeWhile allowed = content
    rw [List.takeWhile_cons_of_neg stop, List.append_nil]
  have behind : (content ++ (doubleClosing ++ rest)).dropWhile allowed = doubleClosing ++ rest := by
    rw [List.dropWhile_append_of_pos inside]
    exact List.dropWhile_cons_of_neg stop
  rw [List.append_assoc, List.append_assoc]
  simp only [enclosed, Text.after?_append, Option.bind_some, front, behind, nonempty, if_false,
    Option.map_some]

theorem enclosed_sound {text content rest : Text}
    (read : (enclosed opening allowed).read? text = some (content, rest)) :
    content ≠ [] ∧ ∀ c ∈ content, allowed c := by
  simp only [enclosed, Option.bind_eq_some_iff] at read
  obtain ⟨inside, _, read⟩ := read
  split at read
  · simp at read
  · rename_i nonempty
    simp only [Option.map_eq_some_iff, Prod.mk.injEq] at read
    obtain ⟨_, _, rfl, rfl⟩ := read
    exact ⟨nonempty, fun c member => List.mem_takeWhile_imp member⟩

theorem enclosed_absent_iff (closed : allowed '\x7d' = false) {text : Text} :
    (enclosed opening allowed).Absent text ↔
      ∀ content, content ≠ [] ∧ (∀ c ∈ content, allowed c) →
        ¬ opening ++ content ++ doubleClosing <:+: text := by
  refine (enclosed opening allowed).absent_iff enclosed_sound ?_
  rintro content rest ⟨nonempty, inside⟩ none
  have found : (enclosed opening allowed).read? (opening ++ content ++ doubleClosing ++ rest) =
      some (content, rest) := enclosed_read?_append closed nonempty inside rest
  cases none.symm.trans found

theorem thins_enclosed (opening content : Text) :
    Text.Thins (fun _ => false) (opening ++ "\x7b\x7b" ++ content ++ doubleClosing)
      (opening ++ "\x7b" ++ content ++ "\x7d") := by
  have braces : ∀ c, Text.isBrace c → Text.Thins (fun _ => false) [c, c] [c] :=
    fun c brace => .merge brace (.refl _ [c])
  exact (((Text.Thins.refl _ opening).append (braces '\x7b' rfl)).append
    (.refl _ content)).append (braces '\x7d' rfl)

end Enclosed

theorem weigh_enclosed_lt (opening content : Text) :
    Text.weigh Text.markWeight (opening ++ "\x7b\x7b" ++ content ++ doubleClosing) <
      Text.weigh Text.markWeight (opening ++ "\x7b" ++ content ++ "\x7d") := by
  have opened : Text.weigh Text.markWeight "\x7b" = -1 := by decide
  have openedTwice : Text.weigh Text.markWeight "\x7b\x7b" = -2 := by decide
  have closed : Text.weigh Text.markWeight "\x7d" = -1 := by decide
  have closedTwice : Text.weigh Text.markWeight doubleClosing = -2 := by decide
  simp only [Text.weigh_append, opened, openedTwice, closed, closedTwice]
  omega

theorem thins_substitute_enclosed (opening : Text) (allowed : Char → Bool) (text : Text) :
    Text.Thins (fun _ => false) text
      ((enclosed (opening ++ "\x7b\x7b") allowed).substitute
        (fun content => opening ++ "\x7b" ++ content ++ "\x7d") text) := by
  refine Pattern.substitute_rel _ _ .nil ?_ ?_ text
  · intro c before after thins
    exact .keep c thins
  · intro content before after _ thins
    exact (thins_enclosed opening content).append thins

/-- Merging equal braces is all that is done. -/
theorem thins_dropDoubled (text : Text) :
    Text.Thins (fun _ => false) text (dropDoubled text) :=
  (thins_substitute_enclosed "\\text" _ text).trans (thins_substitute_enclosed [] _ _)

theorem raises_dropDoubled : Text.Raises Text.markWeight dropDoubled :=
  Text.Raises.comp
    (Pattern.raises_substitute doubledText fun content _ => weigh_enclosed_lt "\\text" content)
    (Pattern.raises_substitute doubled fun content _ => weigh_enclosed_lt [] content)

/-- No content stands in doubled braces, behind a `\text` command if it has opening braces. -/
structure HasSingleBraces (text : Text) : Prop where
  /-- No `\text` command has doubled braces. -/
  behind_text : ∀ content : Text, content ≠ [] → '\x7d' ∉ content →
    ¬ Text.ofString "\\text\x7b\x7b" ++ content ++ doubleClosing <:+: text
  /-- No content without braces has doubled braces. -/
  elsewhere : ∀ content : Text, content ≠ [] → '\x7b' ∉ content → '\x7d' ∉ content →
    ¬ Text.ofString "\x7b\x7b" ++ content ++ doubleClosing <:+: text

theorem doubledText_absent_iff {text : Text} :
    doubledText.Absent text ↔ ∀ content : Text, content ≠ [] → '\x7d' ∉ content →
      ¬ Text.ofString "\\text\x7b\x7b" ++ content ++ doubleClosing <:+: text := by
  have noClosing : ∀ content : Text,
      (∀ c ∈ content, (c != '\x7d') = true) ↔ '\x7d' ∉ content := by
    intro content
    simp only [bne_iff_ne]
    exact ⟨fun all member => all _ member rfl, fun absent c member same => absent (same ▸ member)⟩
  rw [doubledText, enclosed_absent_iff (by decide)]
  simp only [noClosing, and_imp]

theorem doubled_absent_iff {text : Text} :
    doubled.Absent text ↔ ∀ content : Text, content ≠ [] → '\x7b' ∉ content → '\x7d' ∉ content →
      ¬ Text.ofString "\x7b\x7b" ++ content ++ doubleClosing <:+: text := by
  have noBrace : ∀ content : Text, (∀ c ∈ content, (c != '\x7b' && c != '\x7d') = true) ↔
      '\x7b' ∉ content ∧ '\x7d' ∉ content := by
    intro content
    simp only [Bool.and_eq_true, bne_iff_ne]
    constructor
    · intro all
      exact ⟨fun member => (all _ member).1 rfl, fun member => (all _ member).2 rfl⟩
    · rintro ⟨noOpening, noClosing⟩ c member
      exact ⟨fun same => noOpening (same ▸ member), fun same => noClosing (same ▸ member)⟩
  rw [doubled, enclosed_absent_iff (by decide)]
  simp only [noBrace, and_imp]

theorem dropDoubled_eq_self_iff {text : Text} : dropDoubled text = text ↔ HasSingleBraces text := by
  have lighterText := fun content (_ : doubledText.Occurs content) =>
    weigh_enclosed_lt "\\text" content
  have lighter := fun content (_ : doubled.Occurs content) => weigh_enclosed_lt [] content
  have both := Text.Raises.comp_eq_self_iff (doubledText.raises_substitute lighterText)
    (doubled.raises_substitute lighter) text
  rw [doubledText.substitute_eq_self_iff lighterText, doubled.substitute_eq_self_iff lighter,
    doubledText_absent_iff, doubled_absent_iff] at both
  exact both.trans ⟨fun ⟨behindText, elsewhere⟩ => ⟨behindText, elsewhere⟩,
    fun single => ⟨single.behind_text, single.elsewhere⟩⟩

theorem hasSingleBraces_of_absent {text : Text} (absent : ¬ ['\x7b', '\x7b'] <:+: text) :
    HasSingleBraces text where
  behind_text content _ _ inside := by
    refine absent (List.IsInfix.trans ?_ inside)
    exact ⟨Text.ofString "\\text", content ++ doubleClosing, by simp [Text.ofString]⟩
  elsewhere content _ _ _ inside := by
    refine absent (List.IsInfix.trans ?_ inside)
    exact ⟨[], content ++ doubleClosing, by simp [Text.ofString]⟩

end Brace
end DollarMath
