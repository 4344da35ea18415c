/-!
# Texts

A text is a list of characters, and fixed words are written as strings.  This file has the two
ways of looking for a word in a text, at its front and anywhere in it, each with the equation
that says where the word was found.
-/

namespace DollarMath

/-- A text, one list entry for each Unicode scalar value. -/
abbrev Text := List Char

namespace Text

/-- The characters of a string, in order. -/
def ofString (string : String) : Text :=
  string.toList

instance : Coe String Text where
  coe := ofString

/-- The text behind `word`, when the text starts with `word`. -/
def after? : (word text : Text) → Option Text
  | [], text => some text
  | _ :: _, [] => none
  | letter :: word, c :: text => if letter = c then after? word text else none

theorem after?_eq_some_iff {word text rest : Text} :
    after? word text = some rest ↔ text = word ++ rest := by
  induction word generalizing text with
  | nil => simp [after?]
  | cons letter word ih =>
      cases text with
      | nil => simp [after?]
      | cons c text =>
          by_cases same : letter = c
          · simp [after?, same, ih]
          · simp [after?, same, Ne.symm same]

@[simp]
theorem after?_append (word rest : Text) : after? word (word ++ rest) = some rest :=
  after?_eq_some_iff.mpr rfl

/-- The texts before and behind the first occurrence of `word`. -/
def cut? (word : Text) : Text → Option (Text × Text)
  | [] => (after? word []).map fun rest => ([], rest)
  | c :: text =>
      match after? word (c :: text) with
      | some rest => some ([], rest)
      | none => (cut? word text).map fun (before, rest) => (c :: before, rest)

theorem eq_of_cut? {word text before rest : Text} (found : cut? word text = some (before, rest)) :
    text = before ++ word ++ rest := by
  induction text generalizing before with
  | nil =>
      simp only [cut?, Option.map_eq_some_iff, Prod.mk.injEq] at found
      obtain ⟨_, read, rfl, rfl⟩ := found
      simpa using after?_eq_some_iff.mp read
  | cons c text ih =>
      rw [cut?] at found
      split at found
      · rename_i read
        simp only [Option.some.injEq, Prod.mk.injEq] at found
        obtain ⟨rfl, rfl⟩ := found
        simpa using after?_eq_some_iff.mp read
      · simp only [Option.map_eq_some_iff, Prod.mk.injEq, Prod.exists] at found
        obtain ⟨head, _, read, rfl, rfl⟩ := found
        simp [ih read]

/-- Whether `word` occurs somewhere in the text. -/
def occursIn (word text : Text) : Bool :=
  (cut? word text).isSome

/-- The decimal digits of a natural number, without leading zeros. -/
def decimal (n : Nat) : Text :=
  Nat.toDigits 10 n

/-- The decimal digits of an integer, behind a minus sign when it is negative. -/
def signedDecimal : Int → Text
  | .ofNat n => decimal n
  | .negSucc n => '-' :: decimal (n + 1)

end Text
end DollarMath
