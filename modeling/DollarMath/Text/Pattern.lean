import DollarMath.Text.Basic

/-!
# Patterns and substitution

A pattern recognises one occurrence at the front of a text.  Reading a text from left to right
with a pattern cuts it into pieces: occurrences, which do not overlap, and the single characters
between them.  Substitution replaces the occurrences and keeps all else; by
`Pattern.source_pieces` the pieces together are the text itself.
-/

namespace DollarMath

/-- A kind of occurrence that can be recognised at the front of a text. -/
structure Pattern (α : Type) where
  /-- The occurrence that the text starts with, and the text behind it. -/
  read? : Text → Option (α × Text)
  /-- How an occurrence is written. -/
  source : α → Text
  /-- No occurrence is empty. -/
  source_ne_nil : ∀ occurrence, source occurrence ≠ []
  /-- An occurrence and the text behind it are the text that was read. -/
  eq_of_read? : ∀ {text occurrence rest},
    read? text = some (occurrence, rest) → text = source occurrence ++ rest

/-- A part of a text that was read with a pattern. -/
inductive Piece (α : Type) where
  /-- A character at which no occurrence starts. -/
  | plain (c : Char)
  /-- An occurrence of the pattern. -/
  | found (occurrence : α)

/-- A piece as text, with its occurrence written by `write`. -/
def Piece.render {α : Type} (write : α → Text) : Piece α → Text
  | .plain c => [c]
  | .found occurrence => write occurrence

namespace Pattern

variable {α : Type}

theorem length_rest_lt (pattern : Pattern α) {text rest : Text} {occurrence : α}
    (read : pattern.read? text = some (occurrence, rest)) : rest.length < text.length := by
  have positive := List.length_pos_iff.mpr (pattern.source_ne_nil occurrence)
  rw [pattern.eq_of_read? read, List.length_append]
  omega

/-- The pieces of a text: the leftmost occurrences that do not overlap, and the characters
between them. -/
def pieces (pattern : Pattern α) : Text → List (Piece α)
  | [] => []
  | c :: text =>
      match _ : pattern.read? (c :: text) with
      | none => .plain c :: pattern.pieces text
      | some (occurrence, rest) => .found occurrence :: pattern.pieces rest
termination_by text => text.length
decreasing_by
  · simp
  · exact pattern.length_rest_lt (by assumption)

/-- Written as they were read, the pieces are the text. -/
theorem source_pieces (pattern : Pattern α) (text : Text) :
    (pattern.pieces text).flatMap (Piece.render pattern.source) = text := by
  fun_induction pattern.pieces text with
  | case1 => rfl
  | case2 c text _ ih => simp [Piece.render, ih]
  | case3 c text occurrence rest read ih =>
      simp [Piece.render, ih, pattern.eq_of_read? read]

/-- The text with each occurrence written by `write`. -/
def substitute (pattern : Pattern α) (write : α → Text) (text : Text) : Text :=
  (pattern.pieces text).flatMap (Piece.render write)

/-- The text of some pieces, the first of which stands at `offset`; `write` is told where each
occurrence stands. -/
def renderFrom (pattern : Pattern α) (write : Nat → α → Text) : Nat → List (Piece α) → Text
  | _, [] => []
  | offset, .plain c :: pieces => c :: pattern.renderFrom write (offset + 1) pieces
  | offset, .found occurrence :: pieces =>
      write offset occurrence ++
        pattern.renderFrom write (offset + (pattern.source occurrence).length) pieces

/-- The text with each occurrence written by `write`, which is told the offset at which the
occurrence stands. -/
def substituteAt (pattern : Pattern α) (write : Nat → α → Text) (text : Text) : Text :=
  pattern.renderFrom write 0 (pattern.pieces text)

theorem renderFrom_const (pattern : Pattern α) (write : α → Text) (pieces : List (Piece α))
    (offset : Nat) :
    pattern.renderFrom (fun _ => write) offset pieces = pieces.flatMap (Piece.render write) := by
  induction pieces generalizing offset with
  | nil => rfl
  | cons piece pieces ih => cases piece <;> simp [renderFrom, Piece.render, ih]

theorem substituteAt_const (pattern : Pattern α) (write : α → Text) (text : Text) :
    pattern.substituteAt (fun _ => write) text = pattern.substitute write text :=
  pattern.renderFrom_const write _ 0

/-- The occurrences of one fixed word. -/
def word (letters : Text) (nonempty : letters ≠ [] := by decide) : Pattern Unit where
  read? text := (Text.after? letters text).map fun rest => ((), rest)
  source _ := letters
  source_ne_nil _ := nonempty
  eq_of_read? read := by
    simp only [Option.map_eq_some_iff, Prod.mk.injEq] at read
    obtain ⟨_, found, -, rfl⟩ := read
    exact Text.after?_eq_some_iff.mp found

end Pattern
end DollarMath
