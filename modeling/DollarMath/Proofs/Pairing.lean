import DollarMath.Proofs.Document

/-!
# Delimiters stay paired

Both kinds of delimiters are made of dollars, so that formulas side by side give runs of up to four
of them.  Where every content ends before the delimiter behind it, the reader of the dollars is
outside of every formula between two segments, and it reads each segment as a whole.  So it finds
the delimiters of the displayed formulas, and no other dollars, to be markers.
-/

namespace DollarMath
namespace Segment

instance : DecidablePred IsOnLine
  | .prose _ => .isTrue trivial
  | .inline content => inferInstanceAs (Decidable (content ≠ [] ∧ '\n' ∉ content))
  | .display _ => .isTrue trivial

/-- A segment whose content is told apart from the delimiters around it. -/
structure IsPaired (segment : Segment) : Prop where
  /-- No dollar stands in the content. -/
  no_dollar : '$' ∉ segment.content
  /-- No delimiter stands in the content. -/
  no_delimiter : ∀ word ∈ Delimiter.words, ¬ word <:+: segment.content
  /-- No backslash ends the content and escapes what follows it. -/
  no_backslash : segment.content.getLast? ≠ some '\\'
  /-- A formula in a sentence is not empty and stays on its line. -/
  on_line : segment.IsOnLine

instance : DecidablePred IsPaired := fun segment =>
  decidable_of_iff
    ('$' ∉ segment.content ∧ (∀ word ∈ Delimiter.words, ¬ word <:+: segment.content) ∧
      segment.content.getLast? ≠ some '\\' ∧ segment.IsOnLine)
    ⟨fun ⟨noDollar, noDelimiter, noBackslash, onLine⟩ =>
        ⟨noDollar, noDelimiter, noBackslash, onLine⟩,
      fun ⟨noDollar, noDelimiter, noBackslash, onLine⟩ =>
        ⟨noDollar, noDelimiter, noBackslash, onLine⟩⟩

/-- The offsets of the two delimiters of a displayed formula that stands at `start`. -/
def markers (start : Nat) : Segment → List Nat
  | .prose _ | .inline _ => []
  | .display content => [start, start + 2 + content.length]

/-- The markers of a segment stand before those of the text behind it. -/
theorem offsetsOf_chunksBefore (segment : Segment) (start : Nat) {chunks : List Text}
    (nonempty : chunks ≠ []) :
    Marker.offsetsOf start (segment.chunksBefore chunks) =
      segment.markers start ++ Marker.offsetsOf (start + segment.dollars.length) chunks := by
  cases segment with
  | prose content => exact Marker.offsetsOf_modifyHead start content chunks
  | inline content => exact Marker.offsetsOf_modifyHead start (dollars (.inline content)) chunks
  | display content =>
      have width : start + 2 + content.length + 2 =
          start + (dollars (.display content)).length := by
        simp [dollars, Text.ofString]
        omega
      rw [chunksBefore, Marker.offsetsOf_block _ _ nonempty, width]
      rfl

end Segment

namespace Document

variable {document : Document}

/-- The offsets of the delimiters of all displayed formulas in a document with dollars that stands
at `start`. -/
def markers (start : Nat) : Document → List Nat
  | [] => []
  | segment :: document =>
      segment.markers start ++ markers (start + segment.dollars.length) document

theorem offsetsOf_split_dollars (paired : ∀ segment ∈ document, segment.IsPaired) (start : Nat) :
    Marker.offsetsOf start (Marker.split .prose false (dollars document)) =
      markers start document := by
  induction document generalizing start with
  | nil => rfl
  | cons segment document ih =>
      rw [List.forall_mem_cons] at paired
      obtain ⟨here, paired⟩ := paired
      have whole := Segment.split_dollars_append here.on_line here.no_dollar here.no_backslash
        (dollars document)
      rw [dollars, List.flatMap_cons, ← dollars, whole,
        segment.offsetsOf_chunksBefore start (Marker.split_ne_nil _ _ _), ih paired, markers]

/-- The delimiters of a document become dollars and nothing else does, and the block markers of the
text with dollars are the delimiters of the displayed formulas. -/
theorem dollars_stay_paired (paired : ∀ segment ∈ document, segment.IsPaired) :
    Delimiter.dollarBlocks (Delimiter.dollarInline (source document)) = dollars document ∧
      Marker.offsets (dollars document) = markers 0 document := by
  constructor
  · rw [Delimiter.dollarBlocks_dollarInline]
    exact toDollars_source (fun segment member => (paired segment member).no_backslash)
      fun segment member => (paired segment member).no_delimiter
  · rw [Marker.offsets_eq_offsetsOf, Marker.chunks_eq_split]
    exact offsetsOf_split_dollars paired 0

/-- Formulas of both kinds side by side, one of them empty and one over two lines. -/
theorem dollars_stay_paired_of_neighbours :
    Delimiter.dollarBlocks (Delimiter.dollarInline
        "\\(a\\)\\(b\\)\\[\\]\\[x\\\\\ny\\]\\(c\\) and \\begin\x7bcases\x7d") =
      Text.ofString "$a$$b$$$$$$$x\\\\\ny$$$c$ and \\begin\x7bcases\x7d" ∧
    Marker.offsets "$a$$b$$$$$$$x\\\\\ny$$$c$ and \\begin\x7bcases\x7d" = [6, 8, 10, 17] :=
  dollars_stay_paired (by decide : ∀ segment ∈ [.inline "a", .inline "b", .display "",
    .display "x\\\\\ny", .inline "c", .prose " and \\begin\x7bcases\x7d"], Segment.IsPaired segment)

end Document
end DollarMath
