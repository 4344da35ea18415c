import DollarMath.Text.Blank
import Mathlib.Data.List.Infix

/-!
# Words inside texts

Looking for a word and cutting at it agree with the order of infixes.  A word that is cut apart
by a seam between two texts leaves a trace on both sides of it: its first letter on the left and
another letter on the right.  Where one of the two is missing, the word lies on one side.
-/

namespace DollarMath
namespace Text

theorem isSome_after?_iff {word text : Text} : (after? word text).isSome ↔ word <+: text := by
  rw [Option.isSome_iff_exists]
  constructor
  · rintro ⟨rest, read⟩
    exact ⟨rest, (after?_eq_some_iff.mp read).symm⟩
  · rintro ⟨rest, rfl⟩
    exact ⟨rest, after?_append word rest⟩

theorem after?_eq_none_iff {word text : Text} : after? word text = none ↔ ¬ word <+: text := by
  rw [← isSome_after?_iff, Bool.not_eq_true, Option.isSome_eq_false_iff, Option.isNone_iff_eq_none]

theorem isSome_cut?_iff {word text : Text} : (cut? word text).isSome ↔ word <:+: text := by
  induction text with
  | nil =>
      rw [cut?, Option.isSome_map, isSome_after?_iff]
      simp
  | cons c text ih =>
      rw [List.infix_cons_iff, cut?]
      cases read : after? word (c :: text) with
      | some rest => simp [isSome_after?_iff.mp (by simp [read] : (after? word (c :: text)).isSome)]
      | none => simpa [after?_eq_none_iff.mp read] using ih

theorem occursIn_iff {word text : Text} : occursIn word text = true ↔ word <:+: text :=
  isSome_cut?_iff

/-- A word at the front of a joined text lies in front of the seam, when the letter behind the
seam is not one of its later letters. -/
theorem prefix_of_prefix_append_cons {word left right : Text} {c : Char}
    (foreign : c ∉ word.tail) (nonempty : left ≠ [])
    (front : word <+: left ++ c :: right) : word <+: left := by
  induction left generalizing word with
  | nil => exact absurd rfl nonempty
  | cons a left ih =>
      cases word with
      | nil => exact List.nil_prefix
      | cons b word =>
          rw [List.cons_append, List.cons_prefix_cons] at front
          obtain ⟨rfl, front⟩ := front
          rw [List.cons_prefix_cons]
          refine ⟨rfl, ?_⟩
          cases left with
          | nil =>
              cases word with
              | nil => exact List.nil_prefix
              | cons d word =>
                  rw [List.nil_append, List.cons_prefix_cons] at front
                  simp [front.1] at foreign
          | cons d left =>
              refine ih (fun later => foreign ?_) (by simp) front
              exact List.mem_of_mem_tail later

/-- A word is not cut apart by a seam behind which stands none of its later letters. -/
theorem infix_append_cons_iff {word left right : Text} {c : Char}
    (foreign : c ∉ word.tail) (nonempty : word ≠ []) :
    word <:+: left ++ c :: right ↔ word <:+: left ∨ word <:+: c :: right := by
  induction left with
  | nil => simp [nonempty]
  | cons a left ih =>
      rw [List.cons_append, List.infix_cons_iff, List.infix_cons_iff, ih, ← or_assoc]
      have front : word <+: a :: (left ++ c :: right) ↔ word <+: a :: left := by
        constructor
        · exact prefix_of_prefix_append_cons foreign (List.cons_ne_nil a left)
        · exact fun inside => inside.trans (List.prefix_append (a :: left) (c :: right))
      rw [front]

theorem eq_nil_of_prefix_cons {word text : Text} {c : Char} (foreign : c ∉ word)
    (front : word <+: c :: text) : word = [] := by
  cases word with
  | nil => rfl
  | cons d word =>
      rw [(List.cons_prefix_cons.mp front).1] at foreign
      exact absurd List.mem_cons_self foreign

theorem prefix_iff_of_eq_nil {word before after : Text} (noBefore : word <+: before → word = [])
    (noAfter : word <+: after → word = []) : word <+: before ↔ word <+: after := by
  constructor
  · intro front
    rw [noBefore front]
    exact List.nil_prefix
  · intro front
    rw [noAfter front]
    exact List.nil_prefix

theorem infix_cons_iff_of_not_mem {word text : Text} {c : Char} (foreign : c ∉ word) :
    word <:+: c :: text ↔ word <:+: text := by
  rw [List.infix_cons_iff]
  refine ⟨fun inside => inside.elim (fun front => ?_) id, .inr⟩
  rw [eq_nil_of_prefix_cons foreign front]
  exact List.nil_infix

theorem infix_append_cons_iff_of_not_mem {word left right : Text} {c : Char}
    (foreign : c ∉ word) (nonempty : word ≠ []) :
    word <:+: left ++ c :: right ↔ word <:+: left ∨ word <:+: right := by
  rw [infix_append_cons_iff (fun later => foreign (List.mem_of_mem_tail later)) nonempty,
    infix_cons_iff_of_not_mem foreign]

theorem infix_append_iff_of_head_not_mem {first : Char} {word left right : Text}
    (foreign : first ∉ left) :
    first :: word <:+: left ++ right ↔ first :: word <:+: right := by
  induction left with
  | nil => rfl
  | cons a left ih =>
      rw [List.mem_cons, not_or] at foreign
      rw [List.cons_append, List.infix_cons_iff, List.cons_prefix_cons, ih foreign.2]
      simp [foreign.1]

theorem not_prefix_append_of_head_not_mem {first : Char} {word text : Text} (nonempty : text ≠ [])
    (foreign : first ∉ text) (rest : Text) : ¬ first :: word <+: text ++ rest := by
  cases text with
  | nil => exact absurd rfl nonempty
  | cons c text =>
      intro front
      have same : first = c := (List.cons_prefix_cons.mp front).1
      exact foreign (same ▸ List.mem_cons_self)

/-- A word is told from a text by its second letter. -/
theorem not_prefix_of_second_ne {a b c d : Char} {word text : Text} (apart : b ≠ d) :
    ¬ a :: b :: word <+: c :: d :: text := by
  rw [List.cons_prefix_cons, List.cons_prefix_cons]
  exact fun front => apart front.2.1

theorem infix_cons_imp {word before after : Text} (c : Char)
    (front : ∀ later, word = c :: later → later <+: after → later <+: before)
    (inside : word <:+: after → word <:+: before) :
    (word <+: c :: after → word <+: c :: before) ∧
      (word <:+: c :: after → word <:+: c :: before) := by
  have front' : word <+: c :: after → word <+: c :: before := by
    cases word with
    | nil => simp
    | cons d word =>
        rw [List.cons_prefix_cons, List.cons_prefix_cons]
        rintro ⟨rfl, rest⟩
        exact ⟨rfl, front word rfl rest⟩
  refine ⟨front', ?_⟩
  rw [List.infix_cons_iff, List.infix_cons_iff]
  exact Or.imp front' inside

theorem infix_cons_congr {word before after : Text} (c : Char)
    (front : ∀ later, word = c :: later → (later <+: after ↔ later <+: before))
    (inside : word <:+: after ↔ word <:+: before) :
    (word <+: c :: after ↔ word <+: c :: before) ∧
      (word <:+: c :: after ↔ word <:+: c :: before) := by
  have there := infix_cons_imp c (fun later same => (front later same).mp) inside.mp
  have back := infix_cons_imp c (fun later same => (front later same).mpr) inside.mpr
  exact ⟨⟨there.1, back.1⟩, ⟨there.2, back.2⟩⟩

theorem eq_of_append_cons_eq {c : Char} {left left' right right' : Text} (noLeft : c ∉ left)
    (noLeft' : c ∉ left') (same : left ++ c :: right = left' ++ c :: right') : left = left' := by
  induction left generalizing left' with
  | nil =>
      cases left' with
      | nil => rfl
      | cons d left' =>
          rw [List.nil_append, List.cons_append, List.cons.injEq] at same
          simp [same.1] at noLeft'
  | cons d left ih =>
      rw [List.mem_cons, not_or] at noLeft
      cases left' with
      | nil =>
          rw [List.nil_append, List.cons_append, List.cons.injEq] at same
          exact absurd same.1.symm noLeft.1
      | cons e left' =>
          rw [List.mem_cons, not_or] at noLeft'
          rw [List.cons_append, List.cons_append, List.cons.injEq] at same
          rw [same.1, ih noLeft.2 noLeft'.2 same.2]

/-- Cutting at a word that occurs for the first time behind `before`. -/
theorem cut?_append {first : Char} {word before rest : Text} (single : first ∉ word)
    (absent : ¬ first :: word <:+: before) :
    cut? (first :: word) (before ++ (first :: word ++ rest)) = some (before, rest) := by
  induction before with
  | nil =>
      rw [List.nil_append, List.cons_append, cut?, ← List.cons_append, after?_append]
  | cons c before ih =>
      rw [List.infix_cons_iff, not_or] at absent
      have here : after? (first :: word) (c :: (before ++ (first :: word ++ rest))) = none := by
        rw [after?_eq_none_iff]
        intro front
        exact absent.1 (prefix_of_prefix_append_cons (by simpa using single) (by simp) front)
      rw [List.cons_append, cut?, here, ih absent.2]
      rfl

theorem not_infix_of_cut? {word text before rest : Text} (nonempty : word ≠ [])
    (found : cut? word text = some (before, rest)) : ¬ word <:+: before := by
  induction text generalizing before with
  | nil =>
      simp only [cut?, Option.map_eq_some_iff, Prod.mk.injEq] at found
      obtain ⟨_, _, rfl, _⟩ := found
      exact fun inside => nonempty (List.infix_nil.mp inside)
  | cons c text ih =>
      rw [cut?] at found
      split at found
      · obtain ⟨rfl, _⟩ := Prod.mk.inj (Option.some.inj found)
        exact fun inside => nonempty (List.infix_nil.mp inside)
      · rename_i unread
        simp only [Option.map_eq_some_iff, Prod.mk.injEq, Prod.exists] at found
        obtain ⟨head, _, later, rfl, rfl⟩ := found
        rw [List.infix_cons_iff, not_or]
        refine ⟨fun front => after?_eq_none_iff.mp unread (front.trans ?_), ih later⟩
        rw [eq_of_cut? later, List.append_assoc]
        exact List.prefix_append (c :: head) _

section Stops

variable {p : Char → Bool} {text : Text} (stops : text.dropWhile p ≠ [])

include stops

theorem takeWhile_append_of_stops (rest : Text) :
    (text ++ rest).takeWhile p = text.takeWhile p := by
  have short : (text.takeWhile p).length ≠ text.length := by
    intro same
    have whole := congrArg List.length (List.takeWhile_append_dropWhile (p := p) (l := text))
    rw [List.length_append, same, Nat.add_eq_left] at whole
    exact stops (List.length_eq_zero_iff.mp whole)
  rw [List.takeWhile_append, if_neg short]

theorem dropWhile_append_of_stops (rest : Text) :
    (text ++ rest).dropWhile p = text.dropWhile p ++ rest := by
  rw [List.dropWhile_append, if_neg (by simpa using stops)]

end Stops

/-- Whether a character that follows the text has a backslash directly before it; `escaped` tells
it for the text itself. -/
def escapedBehind (escaped : Bool) : Text → Bool
  | [] => escaped
  | c :: text => escapedBehind (c == '\\') text

theorem escapedBehind_append (escaped : Bool) (left right : Text) :
    escapedBehind escaped (left ++ right) = escapedBehind (escapedBehind escaped left) right := by
  induction left generalizing escaped with
  | nil => rfl
  | cons c left ih => exact ih (c == '\\')

theorem escapedBehind_eq_true_iff {escaped : Bool} {text : Text} :
    escapedBehind escaped text = true ↔
      text.getLast? = some '\\' ∨ text = [] ∧ escaped = true := by
  induction text generalizing escaped with
  | nil => simp [escapedBehind]
  | cons c text ih =>
      rw [escapedBehind, ih]
      cases text with
      | nil => simp
      | cons d text => simp

theorem escapedBehind_eq_false {text : Text} (unescaped : text.getLast? ≠ some '\\') :
    escapedBehind false text = false := by
  rw [← Bool.not_eq_true, escapedBehind_eq_true_iff]
  simp [unescaped]

/-- The last character of a text that is not blank. -/
def lastVisible (text : Text) : Option Char :=
  (text.filter (!isBlank ·)).getLast?

theorem lastVisible_append (left right : Text) :
    lastVisible (left ++ right) = (lastVisible right).or (lastVisible left) := by
  rw [lastVisible, List.filter_append, List.getLast?_append]
  rfl

theorem lastVisible_cons_of_isBlank {c : Char} (blank : isBlank c) (text : Text) :
    lastVisible (c :: text) = lastVisible text := by
  simp [lastVisible, blank]

theorem lastVisible_cons_of_visible {c : Char} (visible : isBlank c = false) (text : Text) :
    lastVisible (c :: text) = some ((lastVisible text).getD c) := by
  simp [lastVisible, visible, List.getLast?_cons]

theorem lastVisible_eq_of_getLast? {text : Text} {c : Char} (visible : isBlank c = false)
    (last : text.getLast? = some c) : lastVisible text = some c := by
  obtain ⟨front, rfl⟩ := List.getLast?_eq_some_iff.mp last
  simp [lastVisible, visible]

theorem getLast?_stripEnd (text : Text) : (stripEnd text).getLast? = lastVisible text := by
  induction text using List.reverseRecOn with
  | nil => rfl
  | append_singleton text c ih =>
      rw [lastVisible_append, ← ih]
      cases visible : isBlank c with
      | true => simp [stripEnd, lastVisible, visible]
      | false => simp [stripEnd, lastVisible, visible]

end Text
end DollarMath
