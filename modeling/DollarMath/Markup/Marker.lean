import DollarMath.Markup.Delimiter

/-!
# Block markers

A block marker is a `$$` that opens or closes a displayed formula.  Dollars are paired from left
to right: inside a formula in the sentence a `$$` closes that formula and opens the next one, as
in `$a$$b$`, and marks no block.  A dollar behind a backslash is an ordinary character, and a
formula in the sentence ends with its line at the latest.

`Marker.offsets` finds the markers by jumping from dollar to dollar.  `Marker.chunks` cuts a text
at its markers; the chunks at odd places stand inside a block.
-/

namespace DollarMath

/-- Where a reader stands between two characters. -/
inductive Mode where
  /-- Outside every formula. -/
  | prose
  /-- In a formula that one dollar opened. -/
  | inline
  /-- In a formula that two dollars opened. -/
  | block
  deriving DecidableEq, Repr

namespace Mode

/-- The mode behind a stretch of text without dollars: a line end closes a formula in the
sentence. -/
def behind (mode : Mode) (stretch : Text) : Mode :=
  if mode = .inline ∧ '\n' ∈ stretch then .prose else mode

end Mode

namespace Marker

/-- The first dollar of a text that has no backslash before it, with the dollar next to it. -/
structure Dollars where
  /-- The text before. -/
  before : Text
  /-- Whether there are two dollars. -/
  double : Bool
  /-- The text behind. -/
  rest : Text
  deriving DecidableEq, Repr

namespace Dollars

/-- The dollars themselves. -/
def run (dollars : Dollars) : Text :=
  if dollars.double then ['$', '$'] else ['$']

/-- The dollars that a text starts with behind its first one, which is given. -/
def atFront : Text → Dollars
  | '$' :: text => ⟨[], true, text⟩
  | text => ⟨[], false, text⟩

theorem run_atFront (text : Text) :
    (atFront text).run ++ (atFront text).rest = '$' :: text := by
  unfold atFront
  split <;> rfl

/-- The first dollars of a text; `escaped` tells whether a backslash stands directly before the
text. -/
def first? (escaped : Bool) : Text → Option Dollars
  | [] => none
  | c :: text =>
      if c = '$' ∧ escaped = false then some (atFront text)
      else (first? (c == '\\') text).map fun dollars =>
        { dollars with before := c :: dollars.before }

@[simp]
theorem before_atFront (text : Text) : (atFront text).before = [] := by
  unfold atFront
  split <;> rfl

/-- Induction along the reader up to the first dollars. -/
theorem first?_induction {motive : Bool → Text → Dollars → Prop}
    (here : ∀ text, motive false ('$' :: text) (atFront text))
    (passed : ∀ escaped c text (dollars : Dollars), ¬ (c = '$' ∧ escaped = false) →
      motive (c == '\\') text dollars →
        motive escaped (c :: text) { dollars with before := c :: dollars.before })
    {escaped : Bool} {text : Text} {dollars : Dollars}
    (found : first? escaped text = some dollars) : motive escaped text dollars := by
  induction text generalizing escaped dollars with
  | nil => simp [first?] at found
  | cons c text ih =>
      rw [first?] at found
      split at found
      · rename_i dollar
        obtain ⟨rfl, rfl⟩ := dollar
        exact Option.some.inj found ▸ here text
      · rename_i plain
        obtain ⟨later, read, rfl⟩ := Option.map_eq_some_iff.mp found
        exact passed escaped c text later plain (ih read)

/-- Finding the first dollars splits the text and changes nothing. -/
theorem eq_of_first? {escaped : Bool} {text : Text} {dollars : Dollars}
    (found : first? escaped text = some dollars) :
    text = dollars.before ++ (dollars.run ++ dollars.rest) := by
  refine first?_induction (motive := fun _ text dollars =>
    text = dollars.before ++ (dollars.run ++ dollars.rest)) ?here ?passed found
  case here =>
    intro text
    rw [run_atFront, before_atFront, List.nil_append]
  case passed =>
    intro _ c text dollars _ parts
    exact congrArg (c :: ·) parts

theorem rest_ne_of_single {escaped : Bool} {text : Text} {dollars : Dollars}
    (found : first? escaped text = some dollars) :
    dollars.double = false → ∀ next, dollars.rest ≠ '$' :: next := by
  refine first?_induction (motive := fun _ _ dollars =>
    dollars.double = false → ∀ next, dollars.rest ≠ '$' :: next) ?here ?passed found
  case here =>
    intro text single
    unfold atFront at single ⊢
    split at single <;> simp_all
  case passed =>
    intro _ _ _ _ _ apart
    exact apart

theorem length_rest_lt {text : Text} {dollars : Dollars}
    (found : first? false text = some dollars) :
    (if dollars.double then 1 else 0) + dollars.rest.length < text.length := by
  rw [eq_of_first? found]
  cases double : dollars.double <;> simp [run, double] <;> omega

end Dollars

/-- The offsets of the block markers in a text that is entered in `mode`, where its first
character has the offset `start`. -/
def offsetsFrom (mode : Mode) (start : Nat) (text : Text) : List Nat :=
  match _ : Dollars.first? false text with
  | none => []
  | some dollars =>
      let offset := start + dollars.before.length
      match mode.behind dollars.before, _ : dollars.double with
      | .prose, true => offset :: offsetsFrom .block (offset + 2) dollars.rest
      | .prose, false => offsetsFrom .inline (offset + 1) dollars.rest
      | .inline, true => offsetsFrom .prose (offset + 1) ('$' :: dollars.rest)
      | .inline, false => offsetsFrom .prose (offset + 1) dollars.rest
      | .block, true => offset :: offsetsFrom .prose (offset + 2) dollars.rest
      | .block, false => offsetsFrom .block (offset + 1) dollars.rest
termination_by text.length
decreasing_by all_goals
  have shorter := Dollars.length_rest_lt (by assumption)
  grind

/-- The offsets of the block markers of a text, in order. -/
def offsets (text : Text) : List Nat :=
  offsetsFrom .prose 0 text

/-- Whether the marker at `offset` opens a block: it is the first, third, … of `markers`. -/
def opensAt (markers : List Nat) (offset : Nat) : Bool :=
  match markers.idxOf? offset with
  | some index => index % 2 = 0
  | none => false

/-- Whether the marker at `offset` closes a block: it is the second, fourth, … of `markers`. -/
def closesAt (markers : List Nat) (offset : Nat) : Bool :=
  match markers.idxOf? offset with
  | some index => index % 2 = 1
  | none => false

/-- The texts between the markers at the given offsets of a text whose first character has the
offset `start`. -/
def cutAt (start : Nat) (text : Text) : List Nat → List Text
  | [] => [text]
  | offset :: offsets =>
      let width := offset - start
      text.take width :: cutAt (offset + 2) (text.drop (width + 2)) offsets

/-- A text cut at its block markers. -/
def chunks (text : Text) : List Text :=
  cutAt 0 text (offsets text)

/-- Chunks joined by block markers. -/
def join (chunks : List Text) : Text :=
  Delimiter.blockMarker.intercalate chunks

end Marker
end DollarMath
