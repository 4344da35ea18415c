import DollarMath.Markup.Environment
import DollarMath.Markup.Marker
import DollarMath.Text.Blank

/-!
# Matrix environments

A matrix environment needs a displayed formula around it.  It gets one unless it already has one:
its own text holds a `$$`, or a block marker that opens before it or closes behind it stands at
most a gap away.  A marker in the gap that belongs to a neighbouring block is no reason to leave
the environment bare.
-/

namespace DollarMath
namespace Matrix

/-- The environments that are set as one array of entries. -/
def names : List Text :=
  ["cases", "matrix", "pmatrix", "bmatrix", "vmatrix", "Vmatrix"]

/-- The gap that a text starts with, and the text behind it: spaces and tabs with at most one
line end among them. -/
def readGap (text : Text) : Text × Text :=
  let margin := text.takeWhile Text.isSpaceOrTab
  match text.dropWhile Text.isSpaceOrTab with
  | '\n' :: next =>
      (margin ++ '\n' :: next.takeWhile Text.isSpaceOrTab, next.dropWhile Text.isSpaceOrTab)
  | rest => (margin, rest)

theorem readGap_append (text : Text) : (readGap text).1 ++ (readGap text).2 = text := by
  have line := List.takeWhile_append_dropWhile (p := Text.isSpaceOrTab) (l := text)
  rw [readGap]
  split
  · rename_i next behind
    rw [behind] at line
    simpa [List.takeWhile_append_dropWhile] using line
  · exact line

/-- A matrix environment with the dollars next to it. -/
structure Occurrence where
  /-- The gap between a `$$` and the environment behind it. -/
  opening : Option Text
  /-- The environment. -/
  environment : Environment
  /-- The gap between the environment and a `$$` behind it. -/
  closing : Option Text
  deriving DecidableEq, Repr

namespace Occurrence

/-- The `$$` before the environment, with its gap. -/
def before (occurrence : Occurrence) : Text :=
  match occurrence.opening with
  | some gap => Delimiter.blockMarker ++ gap
  | none => []

/-- The `$$` behind the environment, with its gap. -/
def behind (occurrence : Occurrence) : Text :=
  match occurrence.closing with
  | some gap => gap ++ Delimiter.blockMarker
  | none => []

/-- An occurrence as it is written. -/
def source (occurrence : Occurrence) : Text :=
  occurrence.before ++ occurrence.environment.source ++ occurrence.behind

theorem source_ne_nil (occurrence : Occurrence) : occurrence.source ≠ [] := by
  simp [source, Environment.source_ne_nil]

end Occurrence

/-- The matrix environment that the text starts with, and the text behind it, with the `$$` that
stands a gap behind the environment. -/
def readClosed? (text : Text) : Option (Environment × Option Text × Text) :=
  (Environment.read? names text).map fun (environment, rest) =>
    let (gap, behind) := readGap rest
    match Text.after? Delimiter.blockMarker behind with
    | some rest => (environment, some gap, rest)
    | none => (environment, none, rest)

theorem eq_of_readClosed? {text rest : Text} {environment : Environment} {closing : Option Text}
    (read : readClosed? text = some (environment, closing, rest)) :
    text = environment.source ++ (Occurrence.behind ⟨none, environment, closing⟩ ++ rest) := by
  simp only [readClosed?, Option.map_eq_some_iff, Prod.exists] at read
  obtain ⟨_, inside, named, read⟩ := read
  have gap := readGap_append inside
  rw [Environment.eq_of_read? named]
  split at read
  · rename_i found
    rw [Text.after?_eq_some_iff.mp found] at gap
    simp only [Prod.mk.injEq] at read
    obtain ⟨rfl, rfl, rfl⟩ := read
    simp [Occurrence.behind, gap]
  · simp only [Prod.mk.injEq] at read
    obtain ⟨rfl, rfl, rfl⟩ := read
    simp [Occurrence.behind]

/-- The occurrence that the text starts with, and the text behind it.  A `$$` at the front is
read when a matrix environment stands a gap behind it. -/
def read? (text : Text) : Option (Occurrence × Text) :=
  match Text.after? Delimiter.blockMarker text with
  | some inside =>
      let (gap, inside) := readGap inside
      (readClosed? inside).map fun (environment, closing, rest) =>
        (⟨some gap, environment, closing⟩, rest)
  | none =>
      (readClosed? text).map fun (environment, closing, rest) =>
        (⟨none, environment, closing⟩, rest)

theorem eq_of_read? {text rest : Text} {occurrence : Occurrence}
    (read : read? text = some (occurrence, rest)) : text = occurrence.source ++ rest := by
  rw [read?] at read
  split at read
  · rename_i inside opened
    simp only [Option.map_eq_some_iff, Prod.mk.injEq, Prod.exists] at read
    obtain ⟨_, _, _, closed, rfl, rfl⟩ := read
    have gap := readGap_append inside
    rw [eq_of_readClosed? closed] at gap
    rw [Text.after?_eq_some_iff.mp opened]
    simpa [Occurrence.source, Occurrence.before, Occurrence.behind] using gap.symm
  · simp only [Option.map_eq_some_iff, Prod.mk.injEq, Prod.exists] at read
    obtain ⟨_, _, _, closed, rfl, rfl⟩ := read
    rw [eq_of_readClosed? closed]
    simp [Occurrence.source, Occurrence.before, Occurrence.behind]

/-- The occurrences of matrix environments. -/
def occurrences : Pattern Occurrence where
  read? := read?
  source := Occurrence.source
  source_ne_nil := Occurrence.source_ne_nil
  eq_of_read? := eq_of_read?

/-- Whether an occurrence at `offset` already stands in a displayed formula, as far as the dollars
in it and next to it tell; `markers` are the block markers of the whole text. -/
def Occurrence.isDisplayed (markers : List Nat) (offset : Nat) (occurrence : Occurrence) : Bool :=
  Text.occursIn Delimiter.blockMarker occurrence.environment.source ||
    (occurrence.opening.isSome && Marker.opensAt markers offset) ||
    (occurrence.closing.isSome &&
      Marker.closesAt markers (offset + occurrence.source.length - Delimiter.blockMarker.length))

/-- The occurrence with block markers of its own around the environment. -/
def Occurrence.displayed (occurrence : Occurrence) : Text :=
  occurrence.before ++ Delimiter.blockMarker ++ occurrence.environment.source ++
    Delimiter.blockMarker ++ occurrence.behind

/-- Puts block markers around each matrix environment that stands in no displayed formula. -/
def blockMatrices (text : Text) : Text :=
  let markers := Marker.offsets text
  occurrences.substituteAt (fun offset occurrence =>
    if occurrence.isDisplayed markers offset then occurrence.source
    else occurrence.displayed) text

end Matrix
end DollarMath
