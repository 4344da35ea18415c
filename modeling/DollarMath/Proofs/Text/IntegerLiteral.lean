import DollarMath.Proofs.Text.Flush
import DollarMath.Text.IntegerLiteral
import Mathlib.Data.Nat.Digits.Defs

/-!
# The grammar of integer literals

A row of digits is a digit, or a digit before a row with or without an underscore between the two.
An integer is spelled by such a row behind at most one sign.  Literals are read exactly when they
are of this form, as the number that their digits make by place value; leading zeros count for
nothing but as digits.  No literal starts or ends with a blank character.
-/

namespace DollarMath

namespace Text

theorem isBlank_eq_false_of_digitValue? {c : Char} {value : Nat}
    (digit : digitValue? c = some value) : isBlank c = false := by
  have apart : ∀ first ∈ digitZeros, ∀ range ∈ blankRanges,
      first + 10 ≤ range.1 ∨ range.2 < first := by decide
  simp only [digitValue?, Option.map_eq_some_iff] at digit
  obtain ⟨first, found, -⟩ := digit
  have member := List.mem_of_find?_eq_some found
  have bounds := List.find?_some found
  simp only [Bool.and_eq_true, decide_eq_true_eq] at bounds
  rw [isBlank, List.any_eq_false]
  intro range inside
  simp only [Bool.and_eq_true, decide_eq_true_eq]
  have outside := apart first member range inside
  omega

end Text

namespace IntegerLiteral

/-- A row of digits with these values, in which neighbours may have one underscore between them. -/
inductive IsRow : Text → List Nat → Prop where
  /-- One digit. -/
  | last {c : Char} {value : Nat} (digit : Text.digitValue? c = some value) : IsRow [c] [value]
  /-- A digit before a row. -/
  | next {c : Char} {value : Nat} (digit : Text.digitValue? c = some value) {text : Text}
      {values : List Nat} : IsRow text values → IsRow (c :: text) (value :: values)
  /-- A digit and an underscore before a row. -/
  | underscore {c : Char} {value : Nat} (digit : Text.digitValue? c = some value) {text : Text}
      {values : List Nat} : IsRow text values → IsRow (c :: '_' :: text) (value :: values)

/-- The number that digits of these values make by place value, the greatest place first. -/
def placeValue (values : List Nat) : Nat :=
  Nat.ofDigits 10 values.reverse

/-- The literals of an integer: at most one sign, and a row of not too many digits. -/
inductive Spells : Text → Int → Prop where
  /-- No sign. -/
  | plain {text : Text} {values : List Nat} (row : IsRow text values)
      (short : values.length ≤ maxDigits) : Spells text (placeValue values)
  /-- A plus sign. -/
  | plus {text : Text} {values : List Nat} (row : IsRow text values)
      (short : values.length ≤ maxDigits) : Spells ('+' :: text) (placeValue values)
  /-- A minus sign. -/
  | minus {text : Text} {values : List Nat} (row : IsRow text values)
      (short : values.length ≤ maxDigits) : Spells ('-' :: text) (-placeValue values)

theorem valueOf_eq_placeValue (values : List Nat) : valueOf values = placeValue values := by
  rw [placeValue, Nat.ofDigits_eq_foldr, List.foldr_reverse, valueOf]
  simp only [Nat.cast_id, Nat.add_comm]

section Row

variable {text : Text} {values : List Nat}

theorem underscore_no_digit : Text.digitValue? '_' = none := by decide

theorem IsRow.exists_cons (row : IsRow text values) :
    ∃ c rest value, text = c :: rest ∧ Text.digitValue? c = some value := by
  cases row with
  | last digit => exact ⟨_, _, _, rfl, digit⟩
  | next digit _ => exact ⟨_, _, _, rfl, digit⟩
  | underscore digit _ => exact ⟨_, _, _, rfl, digit⟩

/-- Rows are read as the values of their digits, and nothing else is read. -/
theorem digits?_eq_some_iff : digits? text = some values ↔ IsRow text values := by
  constructor
  · intro read
    induction text using digits?.induct generalizing values with
    | case1 => cases read
    | case2 c =>
        rw [digits?, Option.map_eq_some_iff] at read
        obtain ⟨value, digit, rfl⟩ := read
        exact .last digit
    | case3 c text ih =>
        simp only [digits?, Option.bind_eq_some_iff, Option.map_eq_some_iff] at read
        obtain ⟨value, digit, values, row, rfl⟩ := read
        exact .underscore digit (ih row)
    | case4 c next text other ih =>
        simp only [digits?, Option.bind_eq_some_iff, Option.map_eq_some_iff] at read
        obtain ⟨value, digit, values, row, rfl⟩ := read
        exact .next digit (ih row)
  · intro row
    induction row with
    | last digit => rw [digits?, digit]; rfl
    | @next c value digit text values row ih =>
        obtain ⟨d, rest, _, rfl, digit'⟩ := row.exists_cons
        have other : d = '_' → False := by
          rintro rfl
          cases underscore_no_digit.symm.trans digit'
        rw [digits?, digit, ih]
        · rfl
        · exact other
    | underscore digit row ih => rw [digits?, digit, ih]; rfl

theorem map_magnitude?_eq_some_iff {signed : Nat → Int} {n : Int} :
    (magnitude? text).map signed = some n ↔
      ∃ values, IsRow text values ∧ values.length ≤ maxDigits ∧ signed (placeValue values) = n := by
  simp only [magnitude?, Option.map_eq_some_iff, Option.bind_eq_some_iff, digits?_eq_some_iff,
    valueOf_eq_placeValue, Option.ite_none_right_eq_some, Option.some.injEq]
  constructor
  · rintro ⟨_, ⟨values, row, short, rfl⟩, rfl⟩
    exact ⟨values, row, short, rfl⟩
  · rintro ⟨values, row, short, rfl⟩
    exact ⟨_, ⟨values, row, short, rfl⟩, rfl⟩

theorem IsRow.isBlank_eq_false (row : IsRow text values) : ∀ c ∈ text, Text.isBlank c = false := by
  have underscore : Text.isBlank '_' = false := by decide
  induction row with
  | last digit => exact List.forall_mem_singleton.mpr (Text.isBlank_eq_false_of_digitValue? digit)
  | next digit _ ih =>
      exact List.forall_mem_cons.mpr ⟨Text.isBlank_eq_false_of_digitValue? digit, ih⟩
  | underscore digit _ ih =>
      refine List.forall_mem_cons.mpr ⟨Text.isBlank_eq_false_of_digitValue? digit, ?_⟩
      exact List.forall_mem_cons.mpr ⟨underscore, ih⟩

end Row

section Literal

variable {text : Text} {n : Int}

theorem value?_minus (text : Text) :
    value? ('-' :: text) = (magnitude? text).map fun (magnitude : Nat) => -(magnitude : Int) := by
  rw [value?]
  cases magnitude? text <;> rfl

theorem value?_plus (text : Text) :
    value? ('+' :: text) = (magnitude? text).map fun (magnitude : Nat) => (magnitude : Int) := by
  rw [value?]
  cases magnitude? text <;> rfl

theorem value?_unsigned (noMinus : text.head? ≠ some '-') (noPlus : text.head? ≠ some '+') :
    value? text = (magnitude? text).map fun (magnitude : Nat) => (magnitude : Int) := by
  fun_cases value? text with
  | case1 text => exact absurd rfl noMinus
  | case2 text => exact absurd rfl noPlus
  | case3 => cases magnitude? text <;> rfl

theorem IsRow.head?_ne {values : List Nat} (row : IsRow text values) {sign : Char}
    (noDigit : Text.digitValue? sign = none) : text.head? ≠ some sign := by
  obtain ⟨c, rest, value, rfl, digit⟩ := row.exists_cons
  rw [List.head?_cons, Ne, Option.some.injEq]
  rintro rfl
  cases noDigit.symm.trans digit

/-- Literals are read as the integers that they spell, and nothing else is read. -/
theorem value?_eq_some_iff : value? text = some n ↔ Spells text n := by
  constructor
  · intro read
    by_cases minus : text.head? = some '-'
    · obtain ⟨rest, rfl⟩ := List.head?_eq_some_iff.mp minus
      rw [value?_minus] at read
      obtain ⟨values, row, short, rfl⟩ := map_magnitude?_eq_some_iff.mp read
      exact .minus row short
    by_cases plus : text.head? = some '+'
    · obtain ⟨rest, rfl⟩ := List.head?_eq_some_iff.mp plus
      rw [value?_plus] at read
      obtain ⟨values, row, short, rfl⟩ := map_magnitude?_eq_some_iff.mp read
      exact .plus row short
    · rw [value?_unsigned minus plus] at read
      obtain ⟨values, row, short, rfl⟩ := map_magnitude?_eq_some_iff.mp read
      exact .plain row short
  · rintro (⟨row, short⟩ | ⟨row, short⟩ | ⟨row, short⟩)
    · rw [value?_unsigned (row.head?_ne (by decide)) (row.head?_ne (by decide))]
      exact map_magnitude?_eq_some_iff.mpr ⟨_, row, short, rfl⟩
    · rw [value?_plus]
      exact map_magnitude?_eq_some_iff.mpr ⟨_, row, short, rfl⟩
    · rw [value?_minus]
      exact map_magnitude?_eq_some_iff.mpr ⟨_, row, short, rfl⟩

theorem Spells.isFlush (spelled : Spells text n) : Text.IsFlush text := by
  have visible : text ≠ [] ∧ ∀ c ∈ text, Text.isBlank c = false := by
    have signs : Text.isBlank '+' = false ∧ Text.isBlank '-' = false := by decide
    cases spelled with
    | plain row _ =>
        obtain ⟨c, rest, _, rfl, _⟩ := row.exists_cons
        exact ⟨List.cons_ne_nil c rest, row.isBlank_eq_false⟩
    | plus row _ =>
        exact ⟨List.cons_ne_nil _ _, List.forall_mem_cons.mpr ⟨signs.1, row.isBlank_eq_false⟩⟩
    | minus row _ =>
        exact ⟨List.cons_ne_nil _ _, List.forall_mem_cons.mpr ⟨signs.2, row.isBlank_eq_false⟩⟩
  exact .of_ends visible.1 (fun c first => visible.2 c (List.mem_of_head? first))
    fun c last => visible.2 c (List.mem_of_getLast? last)

end Literal

end IntegerLiteral
end DollarMath
