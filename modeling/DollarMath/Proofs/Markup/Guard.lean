import DollarMath.Proofs.Markup.Matrix
import DollarMath.Proofs.Markup.Offset
import DollarMath.Proofs.Text.Place

/-!
# The guard of the matrix stage

An environment is left alone when its text holds a block marker, or when the marker that opens or
closes the block around it is a gap away.  A closing marker behind an environment is always read
with it.  An opening marker before it is read with it unless the environment before the marker took
it, or the dollar before it, for its own closing marker.
-/

namespace DollarMath

/-- The part of a text between two offsets. -/
structure Span where
  /-- The offset of its first character. -/
  start : Nat
  /-- The offset behind its last character. -/
  stop : Nat
  deriving DecidableEq, Repr

/-- The characters of a span. -/
def Span.cut (span : Span) (text : Text) : Text :=
  (text.drop span.start).take (span.stop - span.start)

namespace Marker

/-- A marker opens a block: it has an even index. -/
def IsOpening (text : Text) (marker : Nat) : Prop :=
  ∃ index, (offsets text)[2 * index]? = some marker

/-- A marker closes a block: it has an odd index. -/
def IsClosing (text : Text) (marker : Nat) : Prop :=
  ∃ index, (offsets text)[2 * index + 1]? = some marker

variable {text : Text} {marker : Nat}

theorem offsets_ordered (text : Text) : (offsets text).Pairwise (· < ·) :=
  (offsets_pairwise text).imp fun behind => by omega

theorem opensAt_offsets_iff : opensAt (offsets text) marker = true ↔ IsOpening text marker :=
  opensAt_iff (offsets_ordered text)

theorem closesAt_offsets_iff : closesAt (offsets text) marker = true ↔ IsClosing text marker :=
  closesAt_iff (offsets_ordered text)

theorem dollars_of_marked (marked : Delimiter.blockMarker <+: text.drop marker) :
    text[marker]? = some '$' ∧ text[marker + 1]? = some '$' := by
  obtain ⟨rest, dollars⟩ := marked
  constructor
  · rw [← Nat.add_zero marker, ← List.getElem?_drop, ← dollars]
    rfl
  · rw [← List.getElem?_drop, ← dollars]
    rfl

theorem marked_of_mem_offsets (member : marker ∈ offsets text) :
    Delimiter.blockMarker <+: text.drop marker := by
  obtain ⟨left, right, rfl, rfl, _⟩ := pairAt_of_mem_offsets member
  exact ⟨right, by rw [List.drop_left]; rfl⟩

theorem IsOpening.marked (opening : IsOpening text marker) :
    Delimiter.blockMarker <+: text.drop marker := by
  obtain ⟨index, here⟩ := opening
  exact marked_of_mem_offsets (List.mem_of_getElem? here)

theorem IsClosing.marked (closing : IsClosing text marker) :
    Delimiter.blockMarker <+: text.drop marker := by
  obtain ⟨index, here⟩ := closing
  exact marked_of_mem_offsets (List.mem_of_getElem? here)

end Marker

namespace Matrix

open Marker

section Gap

variable {text gap rest behind : Text}

theorem isGap_readGap (text : Text) : IsGap (readGap text).1 := by
  have spaces : ∀ rest : Text, ∀ c ∈ rest.takeWhile Text.isSpaceOrTab,
      Text.isSpaceOrTab c = true := fun rest c member => List.mem_takeWhile_imp member
  rw [readGap]
  split
  · rename_i next _
    exact (isGap_of_margin (spaces text) _).mpr (isGap_cons_break.mpr (spaces next))
  · have margin := (isGap_of_margin (spaces text) []).mpr ⟨by simp, by simp⟩
    rwa [List.append_nil] at margin

theorem readGap_of_isGap (isGap : IsGap gap) {c : Char} (visible : Text.isBlank c = false)
    (rest : Text) : readGap (gap ++ c :: rest) = (gap, c :: rest) := by
  obtain ⟨front, tail, parts, whole, read⟩ := readGap_append_cons visible gap
  obtain rfl := whole.mpr isGap
  rw [List.append_nil] at parts
  rw [read, ← parts, List.nil_append]

theorem IsGap.isBlankText (isGap : IsGap gap) : Text.isBlankText gap := by
  rw [Text.isBlankText_iff]
  intro c member
  rcases isGap.1 c member with space | rfl
  · exact Text.isBlank_of_isSpaceOrTab space
  · decide

theorem IsGap.dollar_not_mem (isGap : IsGap gap) : '$' ∉ gap :=
  Text.not_mem_of_isBlankText isGap.isBlankText (by decide)

/-- Between two offsets of a text stands a gap. -/
def GapBetween (text : Text) (start stop : Nat) : Prop :=
  ∃ gap, IsGap gap ∧ gap <+: text.drop start ∧ start + gap.length = stop

/-- Dollars behind a gap are those that stand where the gap ends. -/
theorem gapBetween_blockMarker_iff {left right : Text} {marker : Nat} :
    GapBetween (left ++ right) left.length marker ∧
        Delimiter.blockMarker <+: (left ++ right).drop marker ↔
      ∃ gap behind, IsGap gap ∧ right = gap ++ (Delimiter.blockMarker ++ behind) ∧
        left.length + gap.length = marker := by
  constructor
  · rintro ⟨⟨gap, isGap, ⟨behind, front⟩, rfl⟩, dollars⟩
    rw [List.drop_left] at front
    subst front
    rw [← List.drop_drop, List.drop_left, List.drop_left] at dollars
    obtain ⟨behind, rfl⟩ := dollars
    exact ⟨gap, behind, isGap, rfl, rfl⟩
  · rintro ⟨gap, behind, isGap, rfl, rfl⟩
    refine ⟨⟨gap, isGap, ?_, rfl⟩, ?_⟩
    · rw [List.drop_left]
      exact List.prefix_append _ _
    · rw [← List.drop_drop, List.drop_left, List.drop_left]
      exact List.prefix_append _ _

end Gap

theorem GapBetween.le {text : Text} {start stop : Nat} (between : GapBetween text start stop) :
    start ≤ stop := by
  obtain ⟨gap, _, _, rfl⟩ := between
  exact Nat.le_add_right start gap.length

theorem GapBetween.lt_of_dollar {text : Text} {start stop target : Nat}
    (between : GapBetween text start stop) (dollar : text[target]? = some '$')
    (before : target < stop) : target < start := by
  obtain ⟨gap, isGap, ⟨tail, front⟩, rfl⟩ := between
  by_contra behind
  have within : (gap ++ tail)[target - start]? = text[target]? := by
    rw [front, List.getElem?_drop]
    congr 1
    omega
  rw [List.getElem?_append_left (by omega), dollar] at within
  exact isGap.dollar_not_mem (List.mem_of_getElem? within)

section Reading

variable {text right rest : Text} {environment : Environment} {closing : Option Text}
  {occurrence : Occurrence}

theorem exists_of_readClosed? (read : readClosed? text = some (environment, closing, rest)) :
    ∃ right, text = environment.source ++ right ∧
      ∀ gap behind, (closing = some gap ∧ rest = behind) ↔
        IsGap gap ∧ right = gap ++ (Delimiter.blockMarker ++ behind) := by
  simp only [readClosed?, Option.map_eq_some_iff, Prod.exists] at read
  obtain ⟨found, right, named, read⟩ := read
  have whole := readGap_append right
  have isGap := isGap_readGap right
  refine ⟨right, ?_, fun gap behind => ?_⟩
  · split at read <;> cases read <;> exact Environment.eq_of_read? named
  · have again : IsGap gap → right = gap ++ (Delimiter.blockMarker ++ behind) →
        readGap right = (gap, Delimiter.blockMarker ++ behind) := by
      rintro isGap' rfl
      exact readGap_of_isGap isGap' (by decide : Text.isBlank '$' = false) _
    split at read
    · rename_i later marked
      cases read
      rw [Text.after?_eq_some_iff] at marked
      constructor
      · rintro ⟨same, rfl⟩
        obtain rfl := Option.some.inj same
        exact ⟨isGap, by rw [← marked, whole]⟩
      · rintro ⟨isGap', parts⟩
        have same := again isGap' parts
        rw [same] at marked ⊢
        exact ⟨rfl, (List.append_cancel_left marked).symm⟩
    · rename_i unmarked
      cases read
      refine iff_of_false (fun closed => by cases closed.1) ?_
      rintro ⟨isGap', parts⟩
      rw [again isGap' parts, Text.after?_append] at unmarked
      cases unmarked

/-- An occurrence is read in its parts, with a gap behind its opening dollars. -/
theorem exists_of_read? (read : occurrences.read? text = some (occurrence, rest)) :
    (∀ gap, occurrence.opening = some gap → IsGap gap) ∧
      ∃ inside, text = occurrence.before ++ inside ∧
        readClosed? inside = some (occurrence.environment, occurrence.closing, rest) := by
  change read? text = some (occurrence, rest) at read
  rw [read?] at read
  split at read
  · rename_i inside opened
    simp only [Option.map_eq_some_iff, Prod.mk.injEq, Prod.exists] at read
    obtain ⟨environment, closing, _, closed, rfl, rfl⟩ := read
    refine ⟨?_, (readGap inside).2, ?_, closed⟩
    · rintro gap same
      obtain rfl := Option.some.inj same
      exact isGap_readGap inside
    · rw [Text.after?_eq_some_iff.mp opened, Occurrence.before, List.append_assoc,
        readGap_append]
  · simp only [Option.map_eq_some_iff, Prod.mk.injEq, Prod.exists] at read
    obtain ⟨environment, closing, _, closed, rfl, rfl⟩ := read
    exact ⟨fun gap same => (by cases same), text, rfl, closed⟩

/-- Where dollars stand a gap before an environment, they are read with it. -/
theorem read?_opened (closed : readClosed? (environment.source ++ right) =
      some (environment, closing, rest)) {gap : Text} (isGap : IsGap gap) :
    occurrences.read? (Delimiter.blockMarker ++ (gap ++ (environment.source ++ right))) =
      some (⟨some gap, environment, closing⟩, rest) := by
  have gapRead : readGap (gap ++ (environment.source ++ right)) =
      (gap, environment.source ++ right) :=
    readGap_of_isGap isGap (by decide : Text.isBlank '\\' = false) _
  rw [read?_blockMarker gapRead, closed]
  rfl

end Reading

/-- The environment of an occurrence, without the dollars next to it. -/
def Occurrence.span (offset : Nat) (occurrence : Occurrence) : Span :=
  ⟨offset + occurrence.before.length,
    offset + occurrence.before.length + occurrence.environment.source.length⟩

/-- The matrix environments of a text. -/
def spans (text : Text) : List Span :=
  (occurrences.places text).map fun place => place.2.span place.1

/-- Another environment takes a dollar of the marker: behind a gap it has two dollars of which one
is the marker's first or both are the marker's. -/
def IsTaken (text : Text) (marker : Nat) : Prop :=
  ∃ span ∈ spans text, ∃ dollars, Delimiter.blockMarker <+: text.drop dollars ∧
    GapBetween text span.stop dollars ∧ dollars ≤ marker ∧ marker ≤ dollars + 1

section Place

variable {text : Text} {place other : Nat × Occurrence} {marker : Nat}

theorem length_behind {occurrence : Occurrence} {gap : Text}
    (closing : occurrence.closing = some gap) : occurrence.behind.length = gap.length + 2 := by
  rw [Occurrence.behind, closing, List.length_append]
  rfl

theorem stop_eq (place : Nat × Occurrence) :
    occurrences.stop place = (place.2.span place.1).stop + place.2.behind.length := by
  change place.1 + place.2.source.length = _
  simp only [Occurrence.source, Occurrence.span, List.length_append]
  omega

theorem span_start_lt_stop (place : Nat × Occurrence) :
    (place.2.span place.1).start < (place.2.span place.1).stop := by
  have positive := List.length_pos_iff.mpr place.2.environment.source_ne_nil
  simp only [Occurrence.span]
  omega

theorem exists_of_mem_places (member : place ∈ occurrences.places text) :
    (∀ gap, place.2.opening = some gap → IsGap gap) ∧
      ∃ left right rest,
        text = left ++ (place.2.before ++ (place.2.environment.source ++ right)) ∧
        left.length = place.1 ∧
        readClosed? (place.2.environment.source ++ right) =
          some (place.2.environment, place.2.closing, rest) := by
  obtain ⟨left, _, rest, rfl, stands, read⟩ := occurrences.exists_read?_of_mem_places member
  obtain ⟨isGap, inside, rfl, closed⟩ := exists_of_read? read
  obtain ⟨right, rfl, _⟩ := exists_of_readClosed? closed
  exact ⟨isGap, left, right, rest, rfl, stands, closed⟩

theorem cut_span (member : place ∈ occurrences.places text) :
    (place.2.span place.1).cut text = place.2.environment.source := by
  obtain ⟨_, left, right, _, rfl, stands, _⟩ := exists_of_mem_places member
  rw [Span.cut, Occurrence.span, Nat.add_sub_cancel_left, ← stands, ← List.drop_drop,
    List.drop_left, List.drop_left, List.take_left]

/-- An environment takes the dollars that stand a gap behind it. -/
theorem closed_iff (member : place ∈ occurrences.places text) :
    GapBetween text (place.2.span place.1).stop marker ∧
        Delimiter.blockMarker <+: text.drop marker ↔
      place.2.closing.isSome ∧ occurrences.stop place = marker + 2 := by
  obtain ⟨_, left, right, rest, rfl, stands, closed⟩ := exists_of_mem_places member
  obtain ⟨right', same, taken⟩ := exists_of_readClosed? closed
  obtain rfl := List.append_cancel_left same
  have whole : left ++ (place.2.before ++ (place.2.environment.source ++ right)) =
      (left ++ (place.2.before ++ place.2.environment.source)) ++ right := by simp
  have width : (place.2.span place.1).stop =
      (left ++ (place.2.before ++ place.2.environment.source)).length := by
    simp only [Occurrence.span, List.length_append]
    omega
  rw [whole, stop_eq, width, gapBetween_blockMarker_iff, Option.isSome_iff_exists]
  constructor
  · rintro ⟨gap, behind, isGap, parts, bound⟩
    have here := ((taken gap behind).mpr ⟨isGap, parts⟩).1
    rw [length_behind here]
    exact ⟨⟨gap, here⟩, by omega⟩
  · rintro ⟨⟨gap, here⟩, bound⟩
    obtain ⟨isGap, parts⟩ := (taken gap rest).mp ⟨here, rfl⟩
    rw [length_behind here] at bound
    exact ⟨gap, rest, isGap, parts, by omega⟩

theorem not_isTaken (member : place ∈ occurrences.places text) : ¬ IsTaken text place.1 := by
  rintro ⟨span, spanMember, dollars, marked, gap, before, behind⟩
  obtain ⟨other, otherMember, rfl⟩ := List.mem_map.mp spanMember
  have stop := ((closed_iff otherMember).mp ⟨gap, marked⟩).2
  have ends : (other.2.span other.1).stop ≤ dollars := by
    obtain ⟨_, _, _, width⟩ := gap
    omega
  have starts : other.1 < (other.2.span other.1).stop := by
    have positive := span_start_lt_stop other
    simp only [Occurrence.span] at positive ⊢
    omega
  have here := occurrences.lt_stop place
  rcases occurrences.eq_or_apart member otherMember with rfl | apart | apart <;> omega

theorem Occurrence.getLast?_source (occurrence : Occurrence) :
    occurrence.source.getLast? = some (if occurrence.closing.isSome then '$' else '\x7d') := by
  rw [Occurrence.source, Occurrence.behind]
  cases closing : occurrence.closing with
  | none =>
      rw [List.append_nil, List.getLast?_append, occurrence.environment.getLast?_source]
      rfl
  | some gap => rw [List.getLast?_append, List.getLast?_append]; rfl

theorem getElem?_pred_stop (member : other ∈ occurrences.places text) :
    text[occurrences.stop other - 1]? = some (if other.2.closing.isSome then '$' else '\x7d') := by
  obtain ⟨left, right, rest, rfl, stands, read⟩ := occurrences.exists_read?_of_mem_places member
  have positive := occurrences.lt_stop other
  have last := other.2.getLast?_source
  rw [List.getLast?_eq_getElem?] at last
  have parts : right = other.2.source ++ rest := occurrences.eq_of_read? read
  have width : occurrences.stop other - 1 - left.length = other.2.source.length - 1 := by
    change other.1 + other.2.source.length - 1 - left.length = _
    omega
  have bound : other.2.source.length - 1 < other.2.source.length := by
    change other.1 < other.1 + other.2.source.length at positive
    omega
  rw [List.getElem?_append_right (by omega), width, parts, List.getElem?_append_left bound, last]

/-- An occurrence that reaches across the beginning of dollars takes one of them, when it ends
before the gap behind them does. -/
theorem isTaken_of_across (member : other ∈ occurrences.places text) {gap rest : Text}
    (isGap : IsGap gap) (here : text.drop marker = Delimiter.blockMarker ++ (gap ++ rest))
    (before : other.1 < marker) (across : marker < occurrences.stop other)
    (within : occurrences.stop other ≤ marker + 2 + gap.length) : IsTaken text marker := by
  have bound : occurrences.stop other - 1 - marker <
      (Delimiter.blockMarker ++ gap).length := by
    have dollars : Delimiter.blockMarker.length = 2 := rfl
    rw [List.length_append]
    omega
  have last : (text.drop marker)[occurrences.stop other - 1 - marker]? =
      text[occurrences.stop other - 1]? := by
    rw [List.getElem?_drop]
    congr 1
    omega
  rw [here, ← List.append_assoc, List.getElem?_append_left bound,
    getElem?_pred_stop member] at last
  cases closing : other.2.closing with
  | none =>
      rw [closing] at last
      rcases List.mem_append.mp (List.mem_of_getElem? last) with dollar | blank
      · exact absurd dollar (by decide)
      · exact absurd blank (Text.not_mem_of_isBlankText isGap.isBlankText (by decide))
  | some closed =>
      have stop := stop_eq other
      rw [length_behind closing] at stop
      have early : occurrences.stop other ≤ marker + 2 := by
        by_contra late
        have dollars : Delimiter.blockMarker.length ≤ occurrences.stop other - 1 - marker := by
          change 2 ≤ _
          omega
        rw [closing, List.getElem?_append_right dollars] at last
        exact isGap.dollar_not_mem (List.mem_of_getElem? last)
      have taken : ((other.2.span other.1).stop + closed.length) + 2 = occurrences.stop other := by
        omega
      obtain ⟨between, marked⟩ := (closed_iff member).mpr
        ⟨Option.isSome_iff_exists.mpr ⟨closed, closing⟩, taken.symm⟩
      exact ⟨_, List.mem_map_of_mem member, _, marked, between, by omega, by omega⟩

theorem drop_eq_of_gapBetween (member : place ∈ occurrences.places text)
    (marked : Delimiter.blockMarker <+: text.drop marker)
    (between : GapBetween text (marker + 2) (place.2.span place.1).start) :
    ∃ gap right rest, IsGap gap ∧ marker + 2 + gap.length = (place.2.span place.1).start ∧
      text.drop marker =
        Delimiter.blockMarker ++ (gap ++ (place.2.environment.source ++ right)) ∧
      readClosed? (place.2.environment.source ++ right) =
        some (place.2.environment, place.2.closing, rest) := by
  obtain ⟨gap, isGap, ⟨tail, front⟩, width⟩ := between
  obtain ⟨_, left, right, rest, parts, stands, closed⟩ := exists_of_mem_places member
  obtain ⟨inside, dollars⟩ := marked
  have behind : inside = gap ++ tail := by
    rw [front, ← List.drop_drop, ← dollars]
    rfl
  have environment : tail = place.2.environment.source ++ right := by
    have start : text.drop (place.2.span place.1).start = place.2.environment.source ++ right := by
      rw [parts, Occurrence.span, ← stands, ← List.drop_drop, List.drop_left, List.drop_left]
    rw [← start, ← width, ← List.drop_drop, ← front, List.drop_left]
  exact ⟨gap, right, rest, isGap, width, by rw [← dollars, behind, environment], closed⟩

/-- The dollars that an environment takes stand a gap before it. -/
theorem gapBetween_of_opening (member : place ∈ occurrences.places text) {gap : Text}
    (opening : place.2.opening = some gap) :
    GapBetween text (place.1 + 2) (place.2.span place.1).start := by
  obtain ⟨isGap, left, right, rest, rfl, stands, closed⟩ := exists_of_mem_places member
  have before : place.2.before = Delimiter.blockMarker ++ gap := by
    rw [Occurrence.before, opening]
  refine ⟨gap, isGap gap opening, ?_, ?_⟩
  · rw [← stands, ← List.drop_drop, List.drop_left, before, List.append_assoc]
    exact List.prefix_append _ _
  · rw [Occurrence.span, before, List.length_append]
    change place.1 + 2 + gap.length = place.1 + (2 + gap.length)
    omega

theorem marked_of_opening (member : place ∈ occurrences.places text) {gap : Text}
    (opening : place.2.opening = some gap) : Delimiter.blockMarker <+: text.drop place.1 := by
  obtain ⟨_, left, right, rest, rfl, stands, closed⟩ := exists_of_mem_places member
  rw [← stands, List.drop_left, Occurrence.before, opening, List.append_assoc]
  exact List.prefix_append _ _

/-- An environment takes the dollars that stand a gap before it and are not taken. -/
theorem opened_iff (member : place ∈ occurrences.places text)
    (marked : Delimiter.blockMarker <+: text.drop marker) :
    place.2.opening.isSome ∧ place.1 = marker ↔
      GapBetween text (marker + 2) (place.2.span place.1).start ∧ ¬ IsTaken text marker := by
  constructor
  · rintro ⟨opened, rfl⟩
    obtain ⟨gap, opening⟩ := Option.isSome_iff_exists.mp opened
    exact ⟨gapBetween_of_opening member opening, not_isTaken member⟩
  · rintro ⟨between, free⟩
    cases opening : place.2.opening with
    | some gap =>
        have between' := gapBetween_of_opening member opening
        have le := between.le
        have le' := between'.le
        have before := between'.lt_of_dollar (dollars_of_marked marked).2 (by omega)
        have before' := between.lt_of_dollar
          (dollars_of_marked (marked_of_opening member opening)).2 (by omega)
        exact ⟨rfl, by omega⟩
    | none =>
        obtain ⟨gap, right, rest, isGap, width, here, closed⟩ :=
          drop_eq_of_gapBetween member marked between
        have starts : (place.2.span place.1).start = place.1 := by
          simp [Occurrence.span, Occurrence.before, opening]
        have stop := stop_eq place
        have nonempty := span_start_lt_stop place
        have read := read?_opened closed isGap
        rw [← here] at read
        have located := occurrences.mem_places_of_read? read fun other otherMember before => by
          by_contra across
          refine free (isTaken_of_across otherMember isGap here before (by omega) ?_)
          rcases occurrences.eq_or_apart member otherMember with rfl | apart | apart <;> omega
        have stop' := stop_eq (marker, ⟨some gap, place.2.environment, place.2.closing⟩)
        rcases occurrences.eq_or_apart member located with same | apart | apart
        · rw [same] at opening
          cases opening
        · simp only at apart
          omega
        · have length : Occurrence.before ⟨some gap, place.2.environment, place.2.closing⟩ =
              Delimiter.blockMarker ++ gap := rfl
          have dollars : Delimiter.blockMarker.length = 2 := rfl
          simp only [Occurrence.span, length, List.length_append, dollars] at stop' nonempty
          omega

/-- An environment is read with an opening marker when that stands a gap before it and is not
taken. -/
theorem opens_iff (member : place ∈ occurrences.places text) :
    place.2.opening.isSome ∧ IsOpening text place.1 ↔
      ∃ marker, IsOpening text marker ∧
        GapBetween text (marker + 2) (place.2.span place.1).start ∧ ¬ IsTaken text marker := by
  constructor
  · rintro ⟨opened, opening⟩
    exact ⟨place.1, opening, (opened_iff member opening.marked).mp ⟨opened, rfl⟩⟩
  · rintro ⟨marker, opening, flush⟩
    obtain ⟨opened, rfl⟩ := (opened_iff member opening.marked).mpr flush
    exact ⟨opened, opening⟩

/-- An environment is read with a closing marker when that stands a gap behind it. -/
theorem closes_iff (member : place ∈ occurrences.places text) :
    place.2.closing.isSome ∧ IsClosing text (place.1 + place.2.source.length - 2) ↔
      ∃ marker, IsClosing text marker ∧ GapBetween text (place.2.span place.1).stop marker := by
  have stop : occurrences.stop place = place.1 + place.2.source.length := rfl
  constructor
  · rintro ⟨closed, closing⟩
    have width : occurrences.stop place = place.1 + place.2.source.length - 2 + 2 := by
      obtain ⟨gap, here⟩ := Option.isSome_iff_exists.mp closed
      have behind := stop_eq place
      rw [length_behind here] at behind
      omega
    exact ⟨_, closing, ((closed_iff member).mpr ⟨closed, width⟩).1⟩
  · rintro ⟨marker, closing, between⟩
    obtain ⟨closed, width⟩ := (closed_iff member).mp ⟨between, closing.marked⟩
    have here : place.1 + place.2.source.length - 2 = marker := by omega
    exact ⟨closed, here ▸ closing⟩

/-- The guard holds for an environment exactly when dollars are in it, when a closing marker stands
a gap behind it or when an opening marker stands a gap before it and no other environment takes that
marker. -/
theorem isDisplayed_iff (member : place ∈ occurrences.places text) :
    place.2.isDisplayed (offsets text) place.1 = true ↔
      Delimiter.blockMarker <:+: (place.2.span place.1).cut text ∨
        (∃ marker, IsClosing text marker ∧ GapBetween text (place.2.span place.1).stop marker) ∨
        ∃ marker, IsOpening text marker ∧
          GapBetween text (marker + 2) (place.2.span place.1).start ∧ ¬ IsTaken text marker := by
  rw [← opens_iff member, ← closes_iff member, cut_span member, ← opensAt_offsets_iff,
    ← closesAt_offsets_iff, ← Text.occursIn_iff, Occurrence.isDisplayed]
  simp only [Bool.or_eq_true, Bool.and_eq_true, or_assoc]
  exact or_congr_right or_comm

end Place

end Matrix
end DollarMath
