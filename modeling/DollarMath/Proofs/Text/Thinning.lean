import DollarMath.Proofs.Text.Substitution
import DollarMath.Text.Blank

/-!
# Thinning a text

A text is thinned when some of its spare characters go and when, of two equal braces side by
side, one goes.  All else stays, in its order.  What a dollar, a letter or a backslash has beside
it can only lose spare characters, so properties of single places survive; this file has those
that do not depend on the kind of spare characters.
-/

namespace DollarMath
namespace Text

/-- A brace of either kind. -/
def isBrace (c : Char) : Bool :=
  c == '\x7b' || c == '\x7d'

/-- A text and what is left of it when some spare characters go and equal braces become one. -/
inductive Thins (spare : Char → Bool) : Text → Text → Prop where
  /-- Nothing is left of nothing. -/
  | nil : Thins spare [] []
  /-- A character stays. -/
  | keep (c : Char) {before after : Text} :
      Thins spare before after → Thins spare (c :: before) (c :: after)
  /-- A spare character goes. -/
  | drop {c : Char} {before after : Text} (extra : spare c) :
      Thins spare before after → Thins spare (c :: before) after
  /-- A brace goes when an equal one is left next to it. -/
  | merge {c : Char} {before after : Text} (brace : isBrace c) :
      Thins spare before (c :: after) → Thins spare (c :: before) (c :: after)

/-- Weights by which every stage of the conversion makes a text heavier: a dollar weighs more than
the delimiter in place of which it stands, and blank characters, braces and the letter of a command
that goes weigh less than nothing. -/
def markWeight (c : Char) : Int :=
  if c = '$' then 10
  else if c = '\\' then 1
  else if c = 'd' then -10
  else if isBlank c || isBrace c then -1
  else 0

theorem markWeight_of_isBlank {c : Char} (blank : isBlank c) : markWeight c = -1 := by
  have notDollar : c ≠ '$' := ne_of_isBlank blank (by decide)
  have notBackslash : c ≠ '\\' := ne_of_isBlank blank (by decide)
  have notD : c ≠ 'd' := ne_of_isBlank blank (by decide)
  simp [markWeight, notDollar, notBackslash, notD, blank]

theorem markWeight_of_isBrace {c : Char} (brace : isBrace c) : markWeight c = -1 := by
  simp only [isBrace, Bool.or_eq_true, beq_iff_eq] at brace
  rcases brace with rfl | rfl <;> decide

theorem ne_of_isBrace {c d : Char} (brace : isBrace c) (other : isBrace d = false) : c ≠ d := by
  rintro rfl
  simp [brace] at other

theorem isBrace_of_isBlank {c : Char} (blank : isBlank c) : isBrace c = false := by
  rw [← Bool.not_eq_true]
  intro brace
  simp only [isBrace, Bool.or_eq_true, beq_iff_eq] at brace
  rcases brace with rfl | rfl <;> exact absurd blank (by decide)

namespace Thins

variable {spare : Char → Bool} {before after : Text}

theorem refl (spare : Char → Bool) (text : Text) : Thins spare text text := by
  induction text with
  | nil => exact .nil
  | cons c text ih => exact .keep c ih

theorem append {before' after' : Text} (front : Thins spare before after)
    (behind : Thins spare before' after') :
    Thins spare (before ++ before') (after ++ after') := by
  induction front with
  | nil => exact behind
  | keep c _ ih => exact .keep c ih
  | drop extra _ ih => exact .drop extra ih
  | merge brace _ ih => exact .merge brace ih

theorem trans {last : Text} (first : Thins spare before after) (second : Thins spare after last) :
    Thins spare before last := by
  induction first generalizing last with
  | nil => exact second
  | keep c first ih =>
      cases second with
      | keep _ second => exact .keep c (ih second)
      | drop extra second => exact .drop extra (ih second)
      | merge brace second => exact .merge brace (ih second)
  | drop extra _ ih => exact .drop extra (ih second)
  | @merge c _ _ brace _ ih =>
      have skipped := ih second
      cases second with
      | keep _ second => exact .merge brace skipped
      | drop extra second => exact .drop extra skipped
      | merge _ second => exact .merge brace skipped

theorem mono {spare' : Char → Bool} (wider : ∀ c, spare c → spare' c)
    (thins : Thins spare before after) : Thins spare' before after := by
  induction thins with
  | nil => exact .nil
  | keep c _ ih => exact .keep c ih
  | drop extra _ ih => exact .drop (wider _ extra) ih
  | merge brace _ ih => exact .merge brace ih

theorem of_all_spare {text : Text} (extra : ∀ c ∈ text, spare c) : Thins spare text [] := by
  induction text with
  | nil => exact .nil
  | cons c text ih =>
      rw [List.forall_mem_cons] at extra
      exact .drop extra.1 (ih extra.2)

theorem of_isBlankText {text : Text} (blank : isBlankText text) : Thins isBlank text [] :=
  of_all_spare (isBlankText_iff.mp blank)

theorem sublist (thins : Thins spare before after) : List.Sublist after before := by
  induction thins with
  | nil => exact List.Sublist.refl []
  | keep c _ ih => exact ih.cons_cons c
  | drop _ _ ih => exact ih.cons _
  | merge _ _ ih => exact ih.cons _

theorem eq_nil (thins : Thins spare [] after) : after = [] :=
  List.sublist_nil.mp thins.sublist

theorem front {c : Char} (needed : spare c = false) (noBrace : isBrace c = false) {text : Text}
    (thins : Thins spare (c :: text) after) :
    ∃ text', after = c :: text' ∧ Thins spare text text' := by
  cases thins with
  | keep _ thins => exact ⟨_, rfl, thins⟩
  | drop extra _ => simp [needed] at extra
  | merge brace _ => simp [noBrace] at brace

/-- A letter that is not spare stands between what is left of the texts on its two sides. -/
theorem split {c : Char} (needed : spare c = false) (noBrace : isBrace c = false)
    {left right : Text} (thins : Thins spare (left ++ c :: right) after) :
    ∃ left' right', after = left' ++ c :: right' ∧ Thins spare left left' ∧
      Thins spare right right' := by
  generalize whole : left ++ c :: right = text at thins
  induction thins generalizing left with
  | nil => simp at whole
  | @keep d before after thins ih =>
      rcases List.append_eq_cons_iff.mp whole with ⟨rfl, here⟩ | ⟨left, rfl, rest⟩
      · obtain ⟨rfl, rfl⟩ := List.cons.inj here
        exact ⟨[], after, rfl, .nil, thins⟩
      · obtain ⟨left', right', rfl, front, behind⟩ := ih rest.symm
        exact ⟨d :: left', right', rfl, .keep d front, behind⟩
  | @drop d before after extra _ ih =>
      rcases List.append_eq_cons_iff.mp whole with ⟨rfl, here⟩ | ⟨left, rfl, rest⟩
      · rw [← (List.cons.inj here).1, needed] at extra
        exact absurd extra Bool.false_ne_true
      · obtain ⟨left', right', same, front, behind⟩ := ih rest.symm
        exact ⟨left', right', same, .drop extra front, behind⟩
  | @merge d before after brace _ ih =>
      rcases List.append_eq_cons_iff.mp whole with ⟨rfl, here⟩ | ⟨left, rfl, rest⟩
      · rw [← (List.cons.inj here).1, noBrace] at brace
        exact absurd brace Bool.false_ne_true
      · obtain ⟨left', right', same, front, behind⟩ := ih rest.symm
        rcases List.cons_eq_append_iff.mp same with ⟨rfl, here⟩ | ⟨left', rfl, rfl⟩
        · rw [(List.cons.inj here).1, brace] at noBrace
          exact absurd noBrace.symm Bool.false_ne_true
        · exact ⟨d :: left', right', rfl, .merge brace front, behind⟩

/-- Characters that are neither spare nor braces all stay, in their order. -/
theorem filter_eq {kept : Char → Bool} (noSpare : ∀ c, spare c → kept c = false)
    (noBrace : ∀ c, isBrace c → kept c = false) (thins : Thins spare before after) :
    after.filter kept = before.filter kept := by
  induction thins with
  | nil => rfl
  | keep c _ ih => rw [List.filter_cons, List.filter_cons, ih]
  | drop extra _ ih => rw [ih, List.filter_cons_of_neg (by simp [noSpare _ extra])]
  | merge brace _ ih => rw [ih, List.filter_cons_of_neg (by simp [noBrace _ brace])]

theorem infix_after {word : Text} (needed : ∀ c ∈ word, spare c = false ∧ isBrace c = false)
    (thins : Thins spare before after) :
    (word <+: before → word <+: after) ∧ (word <:+: before → word <:+: after) := by
  induction thins generalizing word with
  | nil => exact ⟨id, id⟩
  | @keep c before after _ ih =>
      refine infix_cons_imp c ?_ (ih needed).2
      rintro later rfl
      exact (ih fun d member => needed d (List.mem_cons_of_mem c member)).1
  | @drop c before after extra _ ih =>
      have foreign : c ∉ word := fun member => by simp [(needed c member).1] at extra
      refine ⟨fun front => ?_, fun inside => ?_⟩
      · rw [eq_nil_of_prefix_cons foreign front]
        exact List.nil_prefix
      · exact (ih needed).2 ((infix_cons_iff_of_not_mem foreign).mp inside)
  | @merge c before after brace _ ih =>
      have foreign : c ∉ word := fun member => by simp [(needed c member).2] at brace
      refine ⟨fun front => ?_, fun inside => ?_⟩
      · rw [eq_nil_of_prefix_cons foreign front]
        exact List.nil_prefix
      · exact (ih needed).2 ((infix_cons_iff_of_not_mem foreign).mp inside)

theorem getLast?_filter (thins : Thins spare before after) :
    (after.filter (!spare ·)).getLast? = (before.filter (!spare ·)).getLast? := by
  induction thins with
  | nil => rfl
  | @keep c before after _ ih =>
      by_cases extra : spare c
      · simpa [extra] using ih
      · simp only [List.filter_cons, extra, Bool.not_false, if_true, List.getLast?_cons, ih]
  | drop extra _ ih => simpa [extra] using ih
  | @merge c before after _ _ ih =>
      by_cases extra : spare c
      · simpa [extra] using ih
      · simp only [List.filter_cons, extra, Bool.not_false, if_true, List.getLast?_cons] at ih ⊢
        rw [← ih]
        rfl

theorem lastVisible_eq (thins : Thins isBlank before after) :
    lastVisible after = lastVisible before :=
  thins.getLast?_filter

/-- Thinning makes a text heavier, when spare characters and braces weigh less than nothing. -/
theorem eq_or_weigh_lt {weight : Char → Int} (light : ∀ c, spare c → weight c < 0)
    (lightBrace : ∀ c, isBrace c → weight c < 0) (thins : Thins spare before after) :
    after = before ∨ weigh weight before < weigh weight after := by
  induction thins with
  | nil => exact .inl rfl
  | keep c _ ih =>
      rcases ih with rfl | lighter
      · exact .inl rfl
      · exact .inr (by simpa using lighter)
  | @drop c before after extra _ ih =>
      have negative := light c extra
      rw [weigh_cons]
      rcases ih with rfl | lighter <;> exact .inr (by omega)
  | @merge c before after brace _ ih =>
      have negative := lightBrace c brace
      rw [weigh_cons weight c before]
      rcases ih with rfl | lighter
      · exact .inr (by omega)
      · exact .inr (by omega)

theorem eq_or_markWeight_lt (thins : Thins isBlank before after) :
    after = before ∨ weigh markWeight before < weigh markWeight after := by
  refine thins.eq_or_weigh_lt ?_ ?_
  · intro c blank
    simp [markWeight_of_isBlank blank]
  · intro c brace
    simp [markWeight_of_isBrace brace]

theorem raises {edit : Text → Text} (thins : ∀ text, Thins isBlank text (edit text)) :
    Raises markWeight edit :=
  fun text => (thins text).eq_or_markWeight_lt

/-- A word without braces that is found when only braces have gone was there before. -/
theorem infix_before {word : Text} (noBrace : ∀ c ∈ word, isBrace c = false)
    (thins : Thins (fun _ => false) before after) :
    (word <+: after → word <+: before) ∧ (word <:+: after → word <:+: before) := by
  induction thins generalizing word with
  | nil => exact ⟨id, id⟩
  | @keep c before after _ ih =>
      refine infix_cons_imp c ?_ (ih noBrace).2
      rintro later rfl
      exact (ih fun d member => noBrace d (List.mem_cons_of_mem c member)).1
  | drop extra _ _ => simp at extra
  | @merge c before after brace _ ih =>
      constructor
      · intro front
        cases word with
        | nil => exact List.nil_prefix
        | cons d word =>
            rw [List.forall_mem_cons, (List.cons_prefix_cons.mp front).1, brace] at noBrace
            simp at noBrace
      · intro inside
        exact ((ih noBrace).2 inside).trans (List.suffix_cons c before).isInfix

end Thins
end Text
end DollarMath
