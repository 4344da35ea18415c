import DollarMath.Proofs.Markup.Guard
import DollarMath.Proofs.Markup.Insertion
import Mathlib.Algebra.Ring.Parity
import Mathlib.Data.List.Nodup

/-!
# Wrapped matrix environments

The matrix stage puts a marker before and a marker behind some of the matrix environments of a text
and does nothing else.  The parity of the markers before an environment tells whether it stands in a
block; outside of blocks neither the marker before it opens a block nor the marker behind it closes
one, so that an environment without dollars is wrapped.
-/

namespace DollarMath

/-- The two ends of a span. -/
def Span.ends (span : Span) : List Nat :=
  [span.start, span.stop]

namespace Matrix

open Marker

/-- The spans of those occurrences that do not count as displayed among the given markers. -/
def bareSpans (markers : List Nat) (places : List (Nat × Occurrence)) : List Span :=
  (places.filter fun place => !place.2.isDisplayed markers place.1).map fun place =>
    place.2.span place.1

/-- The environments of a text that the matrix stage wraps. -/
def wrapped (text : Text) : List Span :=
  bareSpans (offsets text) (occurrences.places text)

section Spans

variable {text : Text} {place : Nat × Occurrence} {span : Span}

theorem wrapped_sublist (text : Text) : (wrapped text).Sublist (spans text) :=
  List.filter_sublist.map _

theorem spans_pairwise (text : Text) :
    (spans text).Pairwise fun earlier later => earlier.stop ≤ later.start := by
  rw [spans, List.pairwise_map]
  refine (occurrences.places_pairwise text).imp fun {earlier later} behind => ?_
  have stop := stop_eq earlier
  have start : later.1 ≤ (later.2.span later.1).start := Nat.le_add_right _ _
  omega

theorem lt_of_mem_spans (member : span ∈ spans text) : span.start < span.stop := by
  obtain ⟨place, _, rfl⟩ := List.mem_map.mp member
  exact span_start_lt_stop place

theorem stop_le_of_mem_spans (member : span ∈ spans text) : span.stop ≤ text.length := by
  obtain ⟨place, placeMember, rfl⟩ := List.mem_map.mp member
  obtain ⟨_, left, right, _, rfl, stands, _⟩ := exists_of_mem_places placeMember
  simp only [Occurrence.span, List.length_append]
  omega

theorem spans_nodup (text : Text) : (spans text).Nodup := by
  refine (spans_pairwise text).imp_of_mem fun {earlier later} member _ behind => ?_
  rintro rfl
  have nonempty := lt_of_mem_spans member
  omega

theorem eq_of_span_eq {other : Nat × Occurrence} (member : place ∈ occurrences.places text)
    (member' : other ∈ occurrences.places text)
    (same : place.2.span place.1 = other.2.span other.1) : place = other := by
  have nonempty := span_start_lt_stop place
  have stop := stop_eq place
  have stop' := stop_eq other
  have start : place.1 ≤ (place.2.span place.1).start := Nat.le_add_right _ _
  have start' : other.1 ≤ (other.2.span other.1).start := Nat.le_add_right _ _
  rw [← same] at start' stop'
  rcases occurrences.eq_or_apart member member' with equal | apart | apart
  · exact equal
  · omega
  · omega

theorem mem_wrapped_iff (member : place ∈ occurrences.places text) :
    place.2.span place.1 ∈ wrapped text ↔
      place.2.isDisplayed (offsets text) place.1 = false := by
  rw [wrapped, bareSpans, List.mem_map]
  constructor
  · rintro ⟨other, otherMember, same⟩
    rw [List.mem_filter, Bool.not_eq_true'] at otherMember
    rw [← eq_of_span_eq otherMember.1 member same]
    exact otherMember.2
  · intro bare
    exact ⟨place, List.mem_filter.mpr ⟨member, by rw [bare]; rfl⟩, rfl⟩

end Spans

section Insertion

variable {markers : List Nat} {pieces : List (Piece Occurrence)} {offset : Nat}

theorem bareSpans_cons (markers : List Nat) (place : Nat × Occurrence)
    (places : List (Nat × Occurrence)) :
    bareSpans markers (place :: places) =
      if place.2.isDisplayed markers place.1 then bareSpans markers places
      else place.2.span place.1 :: bareSpans markers places := by
  rw [bareSpans, List.filter_cons]
  cases place.2.isDisplayed markers place.1 <;> rfl

theorem le_of_mem_ends (markers : List Nat) (offset : Nat) (pieces : List (Piece Occurrence)) :
    ∀ target ∈ (bareSpans markers (occurrences.located offset pieces)).flatMap Span.ends,
      offset ≤ target := by
  intro target member
  obtain ⟨span, spanMember, member⟩ := List.mem_flatMap.mp member
  obtain ⟨place, placeMember, rfl⟩ := List.mem_map.mp spanMember
  have start := occurrences.le_of_mem_located (List.mem_of_mem_filter placeMember)
  simp only [Span.ends, Occurrence.span, List.mem_cons, List.not_mem_nil, or_false] at member
  omega

/-- An environment with markers of its own is its occurrence with two markers put in. -/
theorem insertAt_displayed (occurrence : Occurrence) (offset : Nat) (text : Text)
    {targets : List Nat}
    (behind : ∀ target ∈ targets, offset + occurrence.source.length ≤ target) :
    insertAt offset (occurrence.source ++ text) ((occurrence.span offset).ends ++ targets) =
      occurrence.displayed ++ insertAt (offset + occurrence.source.length) text targets := by
  have width : offset + occurrence.source.length =
      offset + occurrence.before.length + occurrence.environment.source.length +
        occurrence.behind.length := by
    simp only [Occurrence.source, List.length_append]
    omega
  rw [width] at behind ⊢
  simp only [Occurrence.source, Occurrence.displayed, Span.ends, Occurrence.span,
    List.append_assoc, List.cons_append, List.nil_append]
  rw [insertAt_append occurrence.before, insertAt_here,
    insertAt_append occurrence.environment.source, insertAt_here,
    insertAt_append occurrence.behind _ behind]
  · intro target member
    rcases List.mem_cons.mp member with rfl | member
    · exact Nat.le_refl _
    · have bound := behind target member
      omega
  · intro target member
    rcases List.mem_cons.mp member with rfl | member
    · exact Nat.le_refl _
    · rcases List.mem_cons.mp member with rfl | member
      · exact Nat.le_add_right _ _
      · have bound := behind target member
        omega

/-- The stage puts markers at the ends of the environments that do not count as displayed. -/
theorem renderFrom_eq_insertAt (markers : List Nat) (offset : Nat)
    (pieces : List (Piece Occurrence)) :
    occurrences.renderFrom (fun offset occurrence =>
        if occurrence.isDisplayed markers offset then occurrence.source
        else occurrence.displayed) offset pieces =
      insertAt offset (pieces.flatMap (Piece.render Occurrence.source))
        ((bareSpans markers (occurrences.located offset pieces)).flatMap Span.ends) := by
  induction pieces generalizing offset with
  | nil => rfl
  | cons piece pieces ih =>
      cases piece with
      | plain c =>
          have behind := le_of_mem_ends markers (offset + 1) pieces
          rw [Pattern.renderFrom, ih, Pattern.located, List.flatMap_cons, Piece.render,
            insertAt_append [c] _ behind]
          rfl
      | found occurrence =>
          have behind := le_of_mem_ends markers (offset + occurrence.source.length) pieces
          rw [Pattern.renderFrom, ih, Pattern.located, bareSpans_cons, List.flatMap_cons,
            Piece.render]
          split
          · exact (insertAt_append occurrence.source _ behind).symm
          · exact (insertAt_displayed occurrence offset _ behind).symm

theorem blockMatrices_eq_insertAt (text : Text) :
    blockMatrices text = insertAt 0 text ((wrapped text).flatMap Span.ends) := by
  have whole := renderFrom_eq_insertAt (offsets text) 0 (occurrences.pieces text)
  rwa [show Occurrence.source = occurrences.source from rfl, occurrences.source_pieces] at whole

theorem ends_ordered {spans : List Span} (nonempty : ∀ span ∈ spans, span.start < span.stop)
    (behind : spans.Pairwise fun earlier later => earlier.stop ≤ later.start) :
    (spans.flatMap Span.ends).Pairwise (· ≤ ·) := by
  rw [List.pairwise_flatMap]
  constructor
  · intro span member
    simpa [Span.ends] using (nonempty span member).le
  · refine behind.imp_of_mem ?_
    intro earlier later member member' apart target within target' within'
    have width := nonempty earlier member
    have width' := nonempty later member'
    simp only [Span.ends, List.mem_cons, List.not_mem_nil, or_false] at within within'
    omega

/-- Taken out again, the markers of the stage leave the text. -/
theorem flatten_cutAt_blockMatrices (text : Text) :
    (cutAt 0 (blockMatrices text)
      (inserted 0 ((wrapped text).flatMap Span.ends))).flatten = text := by
  have sublist := wrapped_sublist text
  have nonempty : ∀ span ∈ wrapped text, span.start < span.stop :=
    fun span member => lt_of_mem_spans (sublist.subset member)
  rw [blockMatrices_eq_insertAt]
  refine flatten_cutAt_insertAt
    (ends_ordered nonempty ((spans_pairwise text).sublist sublist)) ?_ 0
  intro target member
  obtain ⟨span, spanMember, member⟩ := List.mem_flatMap.mp member
  have width := nonempty span spanMember
  have bound := stop_le_of_mem_spans (sublist.subset spanMember)
  simp only [Span.ends, List.mem_cons, List.not_mem_nil, or_false] at member
  omega

end Insertion

section Parity

variable {text : Text} {span : Span} {marker start : Nat}

/-- A word that stands at an offset of a span, and ends in it, is in the span. -/
theorem infix_cut {word : Text} (front : word <+: text.drop marker) (behind : span.start ≤ marker)
    (within : marker + word.length ≤ span.stop) : word <:+: span.cut text := by
  have later : (span.cut text).drop (marker - span.start) =
      (text.drop marker).take (span.stop - marker) := by
    have target : span.start + (marker - span.start) = marker := by omega
    have width : span.stop - span.start - (marker - span.start) = span.stop - marker := by omega
    rw [Span.cut, List.drop_take, List.drop_drop, target, width]
  have here : word <+: (span.cut text).drop (marker - span.start) := by
    rw [later, List.prefix_take_iff]
    exact ⟨front, by omega⟩
  exact here.isInfix.trans (List.drop_suffix _ _).isInfix

/-- Behind an opening marker and a gap stands an odd number of markers. -/
theorem odd_of_opening (opening : IsOpening text marker)
    (between : GapBetween text (marker + 2) start) : Odd ((offsets text).countP (· < start)) := by
  obtain ⟨index, here⟩ := opening
  have ordered := offsets_ordered text
  have before := between.le
  have lower := (lt_countP_iff ordered here start).mpr (by omega)
  have upper : ¬ 2 * index + 1 < (offsets text).countP (· < start) := by
    intro further
    have bound := further.trans_le List.countP_le_length
    have next : (offsets text)[2 * index + 1]? = some (offsets text)[2 * index + 1] :=
      List.getElem?_eq_getElem bound
    have early := (lt_countP_iff ordered next start).mp further
    have dollar := (dollars_of_marked (marked_of_mem_offsets (List.getElem_mem bound))).1
    have flush := between.lt_of_dollar dollar early
    obtain ⟨_, same⟩ := List.getElem?_eq_some_iff.mp here
    have apart := List.pairwise_iff_getElem.mp (offsets_pairwise text) (2 * index)
      (2 * index + 1) (by omega) bound (by omega)
    omega
  exact ⟨index, by omega⟩

/-- Before a span without dollars, a gap and a closing marker stands an odd number of markers. -/
theorem odd_of_closing (closing : IsClosing text marker) (nonempty : span.start < span.stop)
    (between : GapBetween text span.stop marker)
    (bare : ¬ Delimiter.blockMarker <:+: span.cut text) :
    Odd ((offsets text).countP (· < span.start)) := by
  obtain ⟨index, here⟩ := closing
  have ordered := offsets_ordered text
  have behind := between.le
  have upper : ¬ 2 * index + 1 < (offsets text).countP (· < span.start) := by
    rw [lt_countP_iff ordered here]
    omega
  have lower : 2 * index < (offsets text).countP (· < span.start) := by
    obtain ⟨bound, same⟩ := List.getElem?_eq_some_iff.mp here
    have before : 2 * index < (offsets text).length := by omega
    have previous : (offsets text)[2 * index]? = some (offsets text)[2 * index] :=
      List.getElem?_eq_getElem before
    rw [lt_countP_iff ordered previous]
    by_contra late
    have marked := marked_of_mem_offsets (List.getElem_mem before)
    have apart := List.pairwise_iff_getElem.mp (offsets_pairwise text) (2 * index)
      (2 * index + 1) before bound (by omega)
    have within := between.lt_of_dollar (dollars_of_marked marked).2 (by omega)
    exact bare (infix_cut marked (by omega) within)
  exact ⟨index, by omega⟩

/-- An environment without dollars that stands outside of blocks is wrapped. -/
theorem mem_wrapped_of_even (member : span ∈ spans text)
    (bare : ¬ Delimiter.blockMarker <:+: span.cut text)
    (even : Even ((offsets text).countP (· < span.start))) : span ∈ wrapped text := by
  obtain ⟨place, placeMember, rfl⟩ := List.mem_map.mp member
  rw [mem_wrapped_iff placeMember, ← Bool.not_eq_true, isDisplayed_iff placeMember]
  rw [← Nat.not_odd_iff_even] at even
  rintro (inside | ⟨marker, closing, between⟩ | ⟨marker, opening, between, _⟩)
  · exact bare inside
  · exact even (odd_of_closing closing (span_start_lt_stop place) between bare)
  · exact even (odd_of_opening opening between)

end Parity

/-- The stage puts one marker before and one behind each environment that holds no dollars and that
an even number of markers stands before; it does nothing else than to put such pairs around
environments, and without them the text is what it was. -/
theorem bare_matrices_are_wrapped (text : Text) :
    (∀ span ∈ spans text, ¬ Delimiter.blockMarker <:+: span.cut text →
      Even ((offsets text).countP (· < span.start)) → (wrapped text).count span = 1) ∧
    (wrapped text).Sublist (spans text) ∧
    blockMatrices text = insertAt 0 text ((wrapped text).flatMap Span.ends) ∧
    (cutAt 0 (blockMatrices text)
      (inserted 0 ((wrapped text).flatMap Span.ends))).flatten = text := by
  have sublist := wrapped_sublist text
  refine ⟨fun span member bare even => ?_, sublist, blockMatrices_eq_insertAt text,
    flatten_cutAt_blockMatrices text⟩
  exact List.count_eq_one_of_mem ((spans_nodup text).sublist sublist)
    (mem_wrapped_of_even member bare even)

/-- An environment between two blocks, each of which has a marker flush against it. -/
theorem bare_matrices_are_wrapped_of_neighbours :
    (⟨6, 31⟩ : Span) ∈ spans "$$a$$\n\\begin\x7bcases\x7dx\\end\x7bcases\x7d $$b$$" ∧
      (wrapped "$$a$$\n\\begin\x7bcases\x7dx\\end\x7bcases\x7d $$b$$").count ⟨6, 31⟩ = 1 := by
  have member : (⟨6, 31⟩ : Span) ∈
      spans "$$a$$\n\\begin\x7bcases\x7dx\\end\x7bcases\x7d $$b$$" := by
    decide +kernel
  exact ⟨member,
    (bare_matrices_are_wrapped _).1 _ member (by decide +kernel) (by decide +kernel)⟩

/-- The stage wraps an environment unless dollars are in it, a closing marker stands a gap behind it
or an opening marker stands a gap before it, and no other environment takes that marker. -/
theorem matrices_left_alone_iff (text : Text) :
    blockMatrices text = insertAt 0 text ((wrapped text).flatMap Span.ends) ∧
    ∀ span ∈ spans text, span ∉ wrapped text ↔
      Delimiter.blockMarker <:+: span.cut text ∨
      (∃ marker, IsClosing text marker ∧ GapBetween text span.stop marker) ∨
      ∃ marker, IsOpening text marker ∧ GapBetween text (marker + 2) span.start ∧
        ¬ IsTaken text marker := by
  refine ⟨blockMatrices_eq_insertAt text, fun span member => ?_⟩
  obtain ⟨place, placeMember, rfl⟩ := List.mem_map.mp member
  rw [mem_wrapped_iff placeMember, Bool.not_eq_false, isDisplayed_iff placeMember]

/-- An environment, and a block behind it that another environment and a text stand in. -/
def sideBySide (behind : Text) : Text :=
  Environment.source ⟨"matrix", "1"⟩ ++ "$$" ++ Environment.source ⟨"matrix", "2"⟩ ++ behind ++ "$$"

/-- The first environment takes the opening marker of the block, and the second one is left alone
for the closing marker behind it. -/
theorem matrices_left_alone_iff_of_closing_marker :
    (⟨29, 56⟩ : Span) ∈ spans (sideBySide []) ∧ ⟨29, 56⟩ ∉ wrapped (sideBySide []) := by
  have member : (⟨29, 56⟩ : Span) ∈ spans (sideBySide []) := by decide +kernel
  refine ⟨member, ((matrices_left_alone_iff _).2 _ member).mpr (.inr (.inl ⟨56, ?_, ?_⟩))⟩
  · exact ⟨0, by decide +kernel⟩
  · exact ⟨[], by decide, List.nil_prefix, rfl⟩

/-- Where more than a gap stands behind it, the second environment is wrapped in its own block. -/
theorem wrapped_behind_its_opening_marker :
    (⟨29, 56⟩ : Span) ∈ spans (sideBySide " x") ∧ IsOpening (sideBySide " x") 27 ∧
      GapBetween (sideBySide " x") 29 29 ∧ ⟨29, 56⟩ ∈ wrapped (sideBySide " x") ∧
      blockMatrices (sideBySide " x") =
        "$$" ++ Environment.source ⟨"matrix", "1"⟩ ++ "$$$$$$" ++
          Environment.source ⟨"matrix", "2"⟩ ++ "$$ x$$" :=
  ⟨by decide +kernel, ⟨0, by decide +kernel⟩, ⟨[], by decide, List.nil_prefix, rfl⟩,
    by decide +kernel, by decide +kernel⟩

end Matrix
end DollarMath
