import DollarMath.Markup.Script
import DollarMath.Proofs.Markup.Delimiter
import DollarMath.Proofs.Text.Thinning

/-!
# Escaped script characters

A text is left alone by escaping exactly when each script character has a backslash before it or
an operand behind it.  Both are single visible characters next to the script character, so
whatever thins out the blank characters, or replaces delimiters, keeps an escaped text escaped.
-/

namespace DollarMath
namespace Script

theorem startsOperand_eq_false_of_isBlank {c : Char} (blank : Text.isBlank c) :
    startsOperand c = false := by
  have visible : startsOperand c → Text.isBlank c = false := by
    intro operand
    change (decide (65 ≤ c.val ∧ c.val ≤ 90) || decide (97 ≤ c.val) && decide (c.val ≤ 122) ||
      decide (48 ≤ c.val) && decide (c.val ≤ 57) || c == '\x7b') = true at operand
    simp only [Bool.or_eq_true, Bool.and_eq_true, decide_eq_true_eq, beq_iff_eq,
      UInt32.le_iff_toNat_le] at operand
    simp only [Text.isBlank, Text.blankRanges, List.any_cons, List.any_nil, Bool.or_eq_false_iff,
      Bool.and_eq_false_iff, decide_eq_false_iff_not, and_true]
    rcases operand with operand | rfl
    · change ((65 ≤ c.toNat ∧ c.toNat ≤ 90) ∨ 97 ≤ c.toNat ∧ c.toNat ≤ 122) ∨
        48 ≤ c.toNat ∧ c.toNat ≤ 57 at operand
      omega
    · decide
  cases operand : startsOperand c with
  | false => rfl
  | true => simp [visible operand] at blank

theorem ne_of_isScript {c d : Char} (script : isScript c) (other : isScript d = false) : c ≠ d := by
  rintro rfl
  simp [script] at other

theorem escapeFrom_cons_eq_self_iff {escaped : Bool} {c : Char} {text : Text} :
    escapeFrom escaped (c :: text) = c :: text ↔
      (isScript c → escaped = true ∨ hasOperand text = true) ∧
        escapeFrom (c == '\\') text = text := by
  rw [escapeFrom]
  split
  · rename_i bare
    simp only [Bool.and_eq_true, Bool.not_eq_true'] at bare
    obtain ⟨⟨script, unescaped⟩, noOperand⟩ := bare
    have other : c ≠ '\\' := ne_of_isScript script (by decide)
    simp [script, unescaped, noOperand, other.symm]
  · rename_i kept
    simp only [Bool.and_eq_true, Bool.not_eq_true', not_and, Bool.not_eq_false] at kept
    have needed : isScript c → escaped = true ∨ hasOperand text = true := by
      intro script
      cases escaped with
      | true => exact .inl rfl
      | false => exact .inr (kept ⟨script, rfl⟩)
    simp only [List.cons.injEq, true_and]
    exact ⟨fun same => ⟨needed, same⟩, And.right⟩

theorem escapeFrom_eq_self_iff {escaped : Bool} {text : Text} :
    escapeFrom escaped text = text ↔
      ∀ before c after, text = before ++ c :: after → isScript c →
        Text.escapedBehind escaped before = true ∨ hasOperand after = true := by
  induction text generalizing escaped with
  | nil => simp [escapeFrom]
  | cons d text ih =>
      rw [escapeFrom_cons_eq_self_iff, ih]
      constructor
      · rintro ⟨here, later⟩ before c after whole script
        cases before with
        | nil =>
            rw [List.nil_append, List.cons.injEq] at whole
            obtain ⟨rfl, rfl⟩ := whole
            exact here script
        | cons e before =>
            rw [List.cons_append, List.cons.injEq] at whole
            obtain ⟨rfl, whole⟩ := whole
            exact later before c after whole script
      · intro all
        refine ⟨fun script => all [] d text rfl script, ?_⟩
        intro before c after whole script
        exact all (d :: before) c after (by rw [whole]; rfl) script

theorem isScript_iff {c : Char} : isScript c = true ↔ c = '_' ∨ c = '^' := by
  simp [isScript]

theorem hasOperand_iff {text : Text} :
    hasOperand text = true ↔
      ∃ operand, text.head? = some operand ∧
        (operand.isAlpha = true ∨ operand.isDigit = true ∨ operand = '\x7b') := by
  cases text with
  | nil => simp [hasOperand]
  | cons c text => simp [hasOperand, startsOperand, Char.isAlphanum, or_assoc]

theorem escapeBare_eq_self_iff {text : Text} :
    escapeBare text = text ↔
      ∀ before c after, text = before ++ c :: after → c = '_' ∨ c = '^' →
        before.getLast? = some '\\' ∨
          ∃ operand, after.head? = some operand ∧
            (operand.isAlpha = true ∨ operand.isDigit = true ∨ operand = '\x7b') := by
  have unescaped : ∀ before : Text, Text.escapedBehind false before = true ↔
      before.getLast? = some '\\' := by
    simp [Text.escapedBehind_eq_true_iff]
  rw [escapeBare, escapeFrom_eq_self_iff]
  simp only [isScript_iff, unescaped, hasOperand_iff]

@[simp]
theorem hasOperand_escapeFrom (escaped : Bool) (text : Text) :
    hasOperand (escapeFrom escaped text) = hasOperand text := by
  cases text with
  | nil => rfl
  | cons c text =>
      rw [escapeFrom]
      split
      · rename_i bare
        simp only [Bool.and_eq_true] at bare
        have script := bare.1.1
        simp only [isScript, Bool.or_eq_true, beq_iff_eq] at script
        rcases script with rfl | rfl <;> rfl
      · rfl

theorem escapeFrom_eq_self_of_unescaped {text : Text} (fixed : escapeFrom false text = text)
    (escaped : Bool) : escapeFrom escaped text = text := by
  cases text with
  | nil => rfl
  | cons c text =>
      rw [escapeFrom_cons_eq_self_iff] at fixed ⊢
      exact ⟨fun script => .inr (by simpa using fixed.1 script), fixed.2⟩

/-- An escaped text has no bare script characters. -/
theorem escapeFrom_escapeFrom (escaped : Bool) (text : Text) :
    escapeFrom escaped (escapeFrom escaped text) = escapeFrom escaped text := by
  induction text generalizing escaped with
  | nil => rfl
  | cons c text ih =>
      rw [escapeFrom]
      split
      · rename_i bare
        simp only [Bool.and_eq_true] at bare
        have noScript : isScript '\\' = false := by decide
        rw [escapeFrom_cons_eq_self_iff, escapeFrom_cons_eq_self_iff]
        simp [noScript, ih]
      · rename_i kept
        rw [escapeFrom_cons_eq_self_iff, hasOperand_escapeFrom]
        refine ⟨fun script => ?_, ih (c == '\\')⟩
        cases escaped <;> simp_all

/-- A letter that is neither a script character nor an operand parts what is escaped before it
from what is escaped behind it. -/
theorem escapeFrom_append_cons (escaped : Bool) (left right : Text) {c : Char}
    (noScript : isScript c = false) (noOperand : startsOperand c = false) :
    escapeFrom escaped (left ++ c :: right) =
      escapeFrom escaped left ++ c :: escapeFrom (c == '\\') right := by
  induction left generalizing escaped with
  | nil => simp [escapeFrom, noScript]
  | cons d left ih =>
      have same : hasOperand (left ++ c :: right) = hasOperand left := by
        cases left with
        | nil => simpa [hasOperand] using noOperand
        | cons e left => rfl
      rw [List.cons_append, escapeFrom, escapeFrom, same, ih]
      split <;> rfl

theorem isFlush_escapeFrom (escaped : Bool) {text : Text} (flush : Text.IsFlush text) :
    Text.IsFlush (escapeFrom escaped text) := by
  have last : ∀ (escaped : Bool) (text : Text),
      (escapeFrom escaped text).getLast? = text.getLast? := by
    intro escaped text
    induction text generalizing escaped with
    | nil => rfl
    | cons c text ih =>
        rw [escapeFrom]
        split <;> simp [List.getLast?_cons, ih]
  obtain ⟨c, rest, rfl, visible⟩ := flush.first
  have first : ∀ d, (escapeFrom escaped (c :: rest)).head? = some d → d = '\\' ∨ d = c := by
    rw [escapeFrom]
    intro d
    split
    · exact fun same => .inl (Option.some.inj same).symm
    · exact fun same => .inr (Option.some.inj same).symm
  refine .of_ends ?_ ?_ ?_
  · rw [escapeFrom]
    split <;> exact List.cons_ne_nil _ _
  · intro d head
    rcases first d head with rfl | rfl
    · decide
    · exact visible
  · rw [last]
    exact fun d => flush.isBlank_getLast

theorem isScript_eq_false_of_isBlank {c : Char} (blank : Text.isBlank c) : isScript c = false := by
  rw [← Bool.not_eq_true]
  intro script
  rcases isScript_iff.mp script with rfl | rfl <;> exact absurd blank (by decide)

theorem escapeBare_cons_of_isBlank {c : Char} (blank : Text.isBlank c) (text : Text) :
    escapeBare (c :: text) = c :: escapeBare text := by
  have noBackslash : (c == '\\') = false :=
    beq_eq_false_iff_ne.mpr (Text.ne_of_isBlank blank (by decide))
  rw [escapeBare, escapeFrom, isScript_eq_false_of_isBlank blank, noBackslash]
  rfl

theorem escapeBare_of_isBlankText {text : Text} (blank : Text.isBlankText text) :
    escapeBare text = text := by
  induction text with
  | nil => rfl
  | cons c text ih =>
      simp only [Text.isBlankText, List.all_cons, Bool.and_eq_true] at blank
      rw [escapeBare_cons_of_isBlank blank.1, ih blank.2]

theorem mem_escapeFrom {escaped : Bool} {text : Text} {c : Char}
    (member : c ∈ escapeFrom escaped text) : c = '\\' ∨ c ∈ text := by
  induction text generalizing escaped with
  | nil => simp [escapeFrom] at member
  | cons d text ih =>
      rw [escapeFrom] at member
      have tail : c ∈ escapeFrom (d == '\\') text → c = '\\' ∨ c ∈ d :: text := fun inside =>
        (ih inside).imp_right (List.mem_cons_of_mem d)
      split at member <;> simp only [List.mem_cons] at member ⊢ tail <;> grind

theorem infix_escapeFrom_iff {word : Text} (plain : ∀ c ∈ word, isScript c = false)
    (last : word.getLast? ≠ some '\\') (escaped : Bool) (text : Text) :
    (word <+: escapeFrom escaped text ↔ word <+: text) ∧
      (word <:+: escapeFrom escaped text ↔ word <:+: text) := by
  induction text generalizing word escaped with
  | nil => exact ⟨Iff.rfl, Iff.rfl⟩
  | cons c text ih =>
      rw [escapeFrom]
      split
      · rename_i bare
        simp only [Bool.and_eq_true] at bare
        have foreign : c ∉ word := fun member => by simp [plain c member] at bare
        have alone : ∀ {rest : Text}, word <+: '\\' :: c :: rest → word = [] := by
          intro rest front
          cases word with
          | nil => rfl
          | cons d word =>
              obtain ⟨rfl, later⟩ := List.cons_prefix_cons.mp front
              have empty := Text.eq_nil_of_prefix_cons
                (fun member => foreign (List.mem_cons_of_mem _ member)) later
              simp [empty] at last
        refine ⟨Text.prefix_iff_of_eq_nil alone (Text.eq_nil_of_prefix_cons foreign), ?_⟩
        rw [List.infix_cons_iff, Text.infix_cons_iff_of_not_mem foreign,
          Text.infix_cons_iff_of_not_mem foreign, (ih plain last (c == '\\')).2]
        refine or_iff_right_of_imp fun front => ?_
        rw [alone front]
        exact List.nil_infix
      · refine Text.infix_cons_congr c ?_ (ih plain last _).2
        rintro later rfl
        have lastLater : later.getLast? ≠ some '\\' := by
          intro same
          simp [List.getLast?_cons, same] at last
        exact (ih (fun d member => plain d (List.mem_cons_of_mem c member)) lastLater _).1

theorem lastVisible_escapeFrom (escaped : Bool) (text : Text) :
    Text.lastVisible (escapeFrom escaped text) = Text.lastVisible text := by
  induction text generalizing escaped with
  | nil => rfl
  | cons c text ih =>
      have step : Text.lastVisible (c :: escapeFrom (c == '\\') text) =
          Text.lastVisible (c :: text) := by
        cases visible : Text.isBlank c with
        | true => simp only [Text.lastVisible_cons_of_isBlank visible, ih]
        | false => simp only [Text.lastVisible_cons_of_visible visible, ih]
      rw [escapeFrom]
      split
      · rename_i bare
        simp only [Bool.and_eq_true, isScript, Bool.or_eq_true, beq_iff_eq] at bare
        have visible : Text.isBlank c = false := by
          rcases bare.1.1 with rfl | rfl <;> decide
        rw [Text.lastVisible_cons_of_visible (by decide), step,
          Text.lastVisible_cons_of_visible visible]
        rfl
      · exact step

theorem raises_escapeFrom {weight : Char → Int} (heavy : 0 < weight '\\') (escaped : Bool) :
    Text.Raises weight (escapeFrom escaped) := by
  intro text
  induction text generalizing escaped with
  | nil => exact .inl rfl
  | cons c text ih =>
      rw [escapeFrom]
      split
      · right
        simp only [Text.weigh_cons]
        rcases ih (c == '\\') with same | lighter
        · rw [same]
          omega
        · omega
      · rcases ih (c == '\\') with same | lighter
        · exact .inl (by rw [same])
        · exact .inr (by simpa using lighter)

/-- Thinning an escaped text keeps it escaped. -/
theorem escapeFrom_eq_self_of_thins {before after : Text}
    (thins : Text.Thins Text.isBlank before after) {escaped : Bool}
    (fixed : escapeFrom escaped before = before) : escapeFrom escaped after = after := by
  have operand : ∀ {before after : Text}, Text.Thins Text.isBlank before after →
      hasOperand before = true → hasOperand after = true := by
    intro before after thins first
    cases thins with
    | nil => exact first
    | keep c _ => exact first
    | drop blank _ => simp [hasOperand, startsOperand_eq_false_of_isBlank blank] at first
    | merge _ _ => exact first
  induction thins generalizing escaped with
  | nil => rfl
  | keep c thins ih =>
      rw [escapeFrom_cons_eq_self_iff] at fixed ⊢
      exact ⟨fun script => (fixed.1 script).imp_right (operand thins), ih fixed.2⟩
  | @drop c _ _ blank _ ih =>
      rw [escapeFrom_cons_eq_self_iff] at fixed
      have noBackslash : (c == '\\') = false :=
        beq_eq_false_iff_ne.mpr (Text.ne_of_isBlank blank (by decide))
      rw [noBackslash] at fixed
      exact escapeFrom_eq_self_of_unescaped (ih fixed.2) escaped
  | @merge c _ _ brace _ ih =>
      rw [escapeFrom_cons_eq_self_iff] at fixed
      have noBackslash : (c == '\\') = false :=
        beq_eq_false_iff_ne.mpr (Text.ne_of_isBrace brace (by decide))
      rw [noBackslash] at fixed
      exact escapeFrom_eq_self_of_unescaped (ih fixed.2) escaped

/-- Replacing the delimiters of an escaped text keeps it escaped. -/
theorem escapeFrom_toDollars {text : Text} {escaped : Bool}
    (fixed : escapeFrom escaped text = text) :
    escapeFrom escaped (Delimiter.toDollars text) = Delimiter.toDollars text := by
  have operand : ∀ text : Text, hasOperand (Delimiter.toDollars text) = hasOperand text := by
    intro text
    fun_cases Delimiter.toDollars text with
    | case1 => rfl
    | case2 => rfl
    | case3 letter text dollars delimiter =>
        have backslash : startsOperand '\\' = false := by decide
        have dollar : startsOperand '$' = false := by decide
        rcases Delimiter.eq_of_dollars? delimiter with rfl | rfl <;>
          simp [hasOperand, backslash, dollar]
    | case4 => rfl
    | case5 => rfl
  fun_induction Delimiter.toDollars text generalizing escaped with
  | case1 => rfl
  | case2 => exact fixed
  | case3 letter text dollars delimiter ih =>
      rw [escapeFrom_cons_eq_self_iff, escapeFrom_cons_eq_self_iff] at fixed
      have noBackslash : (letter == '\\') = false := by
        rw [beq_eq_false_iff_ne]
        rintro rfl
        simp [Delimiter.dollars?] at delimiter
      rw [noBackslash] at fixed
      have behind := ih fixed.2.2
      have noScript : isScript '$' = false := by decide
      rcases Delimiter.eq_of_dollars? delimiter with rfl | rfl <;>
        simp [escapeFrom_cons_eq_self_iff, noScript, behind]
  | case4 letter text other ih =>
      rw [escapeFrom_cons_eq_self_iff] at fixed ⊢
      rw [operand]
      exact ⟨fixed.1, ih fixed.2⟩
  | case5 c letter text plain ih =>
      rw [escapeFrom_cons_eq_self_iff] at fixed ⊢
      rw [operand]
      exact ⟨fixed.1, ih fixed.2⟩

end Script
end DollarMath
