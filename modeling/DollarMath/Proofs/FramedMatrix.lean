import DollarMath.Proofs.WrappedMatrix

/-!
# Matrix environments of a text without dollars

Where a text has no dollars, every matrix environment in it gets a marker before it and one behind
it.  No other dollars are in the result, so that its markers are those that were put in, as long as
no backslash stands before one.  Read again, the result falls into the same pieces: each environment
is read with its two markers, the first of which opens a block, and is left alone.
-/

namespace DollarMath
namespace Matrix

open Marker

section Reading

variable {text rest : Text} {environment : Environment} {occurrence : Occurrence}

theorem readClosed?_eq_none_iff :
    readClosed? text = none ↔ Environment.read? names text = none := by
  rw [readClosed?, Option.map_eq_none_iff]

theorem unclosed_of_readClosed? {closing : Option Text}
    (read : readClosed? text = some (environment, closing, rest)) :
    ¬ Environment.closing environment.name <:+: environment.body := by
  simp only [readClosed?, Option.map_eq_some_iff, Prod.exists] at read
  obtain ⟨_, _, named, read⟩ := read
  have unclosed := Environment.unclosed_of_read? named
  split at read <;> cases read <;> exact unclosed

theorem filter_ne_dollar (noDollar : '$' ∉ text) : text.filter (· ≠ '$') = text := by
  rw [List.filter_eq_self]
  intro c member
  rw [decide_eq_true_eq]
  rintro rfl
  exact noDollar member

theorem read?_eq_none_of_filter
    (absent : Environment.read? names (text.filter (· ≠ '$')) = none) :
    Environment.read? names text = none := by
  cases read : Environment.read? names text with
  | none => rfl
  | some found =>
      obtain ⟨⟨name, body⟩, rest⟩ := found
      have member := Environment.name_mem_of_read? read
      have letters : ∀ name ∈ names,
          '$' ∉ Environment.opening name ∧ '$' ∉ Environment.closing name := by
        decide
      have source : (Environment.source ⟨name, body⟩).filter (· ≠ '$') =
          Environment.source ⟨name, body.filter (· ≠ '$')⟩ := by
        rw [Environment.source, List.filter_append, List.filter_append,
          filter_ne_dollar (letters name member).1, filter_ne_dollar (letters name member).2,
          Environment.source]
      rw [Environment.eq_of_read? read, List.filter_append, source] at absent
      exact absurd absent (Environment.read?_ne_none ⟨name, _⟩ _ member)

/-- An occurrence without dollars is an environment alone. -/
theorem Occurrence.eq_of_noDollar (noDollar : '$' ∉ occurrence.source) :
    occurrence = ⟨none, occurrence.environment, none⟩ := by
  obtain ⟨opening, environment, closing⟩ := occurrence
  have dollar : '$' ∈ Delimiter.blockMarker := by decide
  rw [source, List.mem_append, List.mem_append, not_or, not_or] at noDollar
  have opened : opening = none := by
    cases opening with
    | none => rfl
    | some gap => exact absurd (List.mem_append_left gap dollar) noDollar.1.1
  have closed : closing = none := by
    cases closing with
    | none => rfl
    | some gap => exact absurd (List.mem_append_right gap dollar) noDollar.2
  rw [opened, closed]

/-- Between two markers an environment is read with both of them. -/
theorem read?_between (member : environment.name ∈ names)
    (unclosed : ¬ Environment.closing environment.name <:+: environment.body) (rest : Text) :
    occurrences.read? (Delimiter.blockMarker ++
        (environment.source ++ (Delimiter.blockMarker ++ rest))) =
      some (⟨some [], environment, some []⟩, rest) := by
  have named := Environment.read?_source
    (fun name member => ⟨(names_plain name member).1, (names_plain name member).2.1⟩) member
    unclosed (Delimiter.blockMarker ++ rest)
  have gap : readGap (Delimiter.blockMarker ++ rest) = ([], Delimiter.blockMarker ++ rest) :=
    readGap_of_isGap (by decide : IsGap []) (by decide : Text.isBlank '$' = false) _
  have closed : readClosed? (environment.source ++ (Delimiter.blockMarker ++ rest)) =
      some (environment, some [], rest) := by
    rw [readClosed?, named, Option.map_some]
    simp only [gap, Text.after?_append]
  exact read?_opened closed (by decide : IsGap [])

end Reading

/-- A text without dollars is read character by character and environment by environment. -/
@[elab_as_elim]
theorem bare_induction {motive : Text → Prop} (nil : motive [])
    (plain : ∀ c text, c ≠ '$' → '$' ∉ text → occurrences.read? (c :: text) = none →
      motive text → motive (c :: text))
    (found : ∀ environment rest, environment.name ∈ names →
      ¬ Environment.closing environment.name <:+: environment.body →
      '$' ∉ environment.source → '$' ∉ rest →
      occurrences.read? (environment.source ++ rest) = some (⟨none, environment, none⟩, rest) →
      motive rest → motive (environment.source ++ rest))
    (text : Text) (noDollar : '$' ∉ text) : motive text := by
  fun_induction occurrences.pieces text with
  | case1 => exact nil
  | case2 c text absent ih =>
      rw [List.mem_cons, not_or] at noDollar
      exact plain c text (Ne.symm noDollar.1) noDollar.2 absent (ih noDollar.2)
  | case3 c text occurrence rest read ih =>
      have whole : c :: text = occurrence.source ++ rest := occurrences.eq_of_read? read
      rw [whole, List.mem_append, not_or] at noDollar
      obtain ⟨environment, bare⟩ : ∃ environment, occurrence = ⟨none, environment, none⟩ :=
        ⟨_, Occurrence.eq_of_noDollar noDollar.1⟩
      subst bare
      obtain ⟨_, inside, same, closed⟩ := exists_of_read? read
      have source : Occurrence.source ⟨none, environment, none⟩ = environment.source :=
        List.append_nil _
      rw [source] at whole noDollar
      rw [whole] at read ⊢
      exact found environment rest (name_mem_of_readClosed? closed)
        (unclosed_of_readClosed? closed) noDollar.1 noDollar.2 read (ih noDollar.2)

section Frame

/-- A text with a marker before and behind each environment. -/
def frame : Text → Text :=
  occurrences.substitute Occurrence.displayed

/-- A piece of a text without dollars, as it is found again in the framed text. -/
def framed : Piece Occurrence → Piece Occurrence
  | .plain c => .plain c
  | .found occurrence => .found ⟨some [], occurrence.environment, some []⟩

variable {text rest : Text} {environment : Environment}

theorem frame_cons {c : Char} (absent : occurrences.read? (c :: text) = none) :
    frame (c :: text) = c :: frame text :=
  occurrences.substitute_cons _ absent

theorem frame_source
    (read : occurrences.read? (environment.source ++ rest) =
      some (⟨none, environment, none⟩, rest)) :
    frame (environment.source ++ rest) = Delimiter.blockMarker ++
      (environment.source ++ (Delimiter.blockMarker ++ frame rest)) := by
  rw [frame, occurrences.substitute_of_read? _ read]
  simp [Occurrence.displayed, Occurrence.before, Occurrence.behind]

theorem filter_frame (noDollar : '$' ∉ text) : (frame text).filter (· ≠ '$') = text := by
  have marker : Delimiter.blockMarker.filter (· ≠ '$') = [] := by decide
  have kept : (frame text).filter (· ≠ '$') = text.filter (· ≠ '$') := by
    refine occurrences.filter_substitute (fun occurrence _ => ?_) text
    simp only [Occurrence.displayed, occurrences, Occurrence.source, List.filter_append, marker,
      List.append_nil]
  rw [kept, filter_ne_dollar noDollar]

/-- A framed text falls into the same pieces, where each environment has its two markers. -/
theorem pieces_frame (noDollar : '$' ∉ text) :
    occurrences.pieces (frame text) = (occurrences.pieces text).map framed := by
  refine bare_induction ?nil ?plain ?found text noDollar
  case nil => simp [frame]
  case plain =>
    intro c text other noDollar absent ih
    have unopened : ∀ text : Text, ¬ Delimiter.blockMarker <+: c :: text :=
      fun text front => other (List.cons_prefix_cons.mp front).1.symm
    have absent' : occurrences.read? (c :: frame text) = none := by
      rw [read?_of_unopened (unopened _), Option.map_eq_none_iff, readClosed?_eq_none_iff]
        at absent ⊢
      refine read?_eq_none_of_filter ?_
      rwa [List.filter_cons_of_pos (by simpa using other), filter_frame noDollar]
    rw [frame_cons absent, occurrences.pieces_cons absent', ih, occurrences.pieces_cons absent]
    rfl
  case found =>
    intro environment rest member unclosed _ _ read ih
    rw [frame_source read, occurrences.pieces_of_read? (read?_between member unclosed _), ih,
      occurrences.pieces_of_read? read]
    rfl

end Frame

section Markers

variable {text rest : Text} {environment : Environment}

/-- The environments of a text whose first character has the offset `offset`. -/
def spansFrom (offset : Nat) (text : Text) : List Span :=
  (occurrences.located offset (occurrences.pieces text)).map fun place => place.2.span place.1

theorem spansFrom_cons {c : Char} (absent : occurrences.read? (c :: text) = none) (offset : Nat) :
    spansFrom offset (c :: text) = spansFrom (offset + 1) text := by
  rw [spansFrom, occurrences.pieces_cons absent]
  rfl

theorem spansFrom_source
    (read : occurrences.read? (environment.source ++ rest) =
      some (⟨none, environment, none⟩, rest)) (offset : Nat) :
    spansFrom offset (environment.source ++ rest) =
      ⟨offset, offset + environment.source.length⟩ ::
        spansFrom (offset + environment.source.length) rest := by
  have source : Occurrence.source ⟨none, environment, none⟩ = environment.source :=
    List.append_nil _
  rw [spansFrom, occurrences.pieces_of_read? read, Pattern.located, List.map_cons]
  change _ :: spansFrom (offset + (Occurrence.source ⟨none, environment, none⟩).length) rest = _
  rw [source]
  rfl

theorem inserted_source (offset distance : Nat) (spans : List Span) :
    inserted distance ((⟨offset, offset + environment.source.length⟩ :: spans).flatMap Span.ends) =
      (offset + distance) :: (offset + environment.source.length + (distance + 2)) ::
        inserted (distance + 4) (spans.flatMap Span.ends) :=
  rfl

/-- Behind a front of prose in which markers of the length `distance` were put, the markers of a
framed text are those around its environments. -/
theorem offsetsOf_split_frame (noDollar : '$' ∉ text) (front : Text) (distance : Nat)
    (unescaped : ∀ span ∈ spansFrom front.length text,
      ((front ++ text).take span.start).getLast? ≠ some '\\') :
    offsetsOf (front.length + distance)
        (split .prose (Text.escapedBehind false front) (frame text)) =
      inserted distance ((spansFrom front.length text).flatMap Span.ends) := by
  revert front distance
  refine bare_induction ?nil ?plain ?found text noDollar
  case nil =>
    intro front distance _
    simp [frame, split, offsetsOf, spansFrom, Pattern.located, inserted]
  case plain =>
    intro c text other _ absent ih front distance unescaped
    have later := ih (front ++ [c]) distance
    have behind : Text.escapedBehind false (front ++ [c]) = (c == '\\') := by
      simp [Text.escapedBehind_append, Text.escapedBehind]
    have plain : ¬ (c = '$' ∧ Text.escapedBehind false front = false) :=
      fun dollar => other dollar.1
    have moved : front.length + 1 + distance = front.length + distance + [c].length := by
      rw [List.length_singleton]
      omega
    rw [List.length_append, List.length_singleton, List.append_assoc, List.singleton_append,
      behind, moved, ← spansFrom_cons absent] at later
    rw [frame_cons absent, split_cons_of_plain .prose plain, offsetsOf_modifyHead]
    exact later unescaped
  case found =>
    intro environment rest _ _ bare _ read ih front distance unescaped
    have later := ih (front ++ environment.source) (distance + 4)
    have brace : ∀ front : Text, (front ++ environment.source).getLast? ≠ some '\\' := by
      simp [List.getLast?_append, environment.getLast?_source]
    have markers : frame (environment.source ++ rest) =
        '$' :: '$' :: (environment.source ++ '$' :: '$' :: frame rest) := frame_source read
    have apart : split .prose false (frame rest) ≠ [] := split_ne_nil _ _ _
    have closing : front.length + distance + 2 + environment.source.length =
        front.length + environment.source.length + (distance + 2) := by
      omega
    have next : front.length + environment.source.length + (distance + 2) + 2 =
        front.length + environment.source.length + (distance + 4) := by
      omega
    rw [spansFrom_source read, List.forall_mem_cons, List.take_left' rfl] at unescaped
    rw [List.length_append, List.append_assoc, Text.escapedBehind_eq_false (brace front)] at later
    rw [Text.escapedBehind_eq_false unescaped.1, markers, split_prose_block bare (brace []),
      offsetsOf_block _ _ apart, spansFrom_source read, inserted_source, closing, next,
      later unescaped.2]

/-- Where no backslash stands before an environment, the markers of a framed text are those around
the environments. -/
theorem offsets_frame (noDollar : '$' ∉ text)
    (unescaped : ∀ span ∈ spans text, (text.take span.start).getLast? ≠ some '\\') :
    offsets (frame text) = inserted 0 ((spans text).flatMap Span.ends) := by
  rw [offsets_eq_offsetsOf, chunks_eq_split]
  exact offsetsOf_split_frame noDollar [] 0 unescaped

/-- An environment of a framed text is read with the marker before it, which stands at an even
place among those that were put in. -/
theorem opening_of_mem_located_framed (noDollar : '$' ∉ text) (offset distance : Nat) :
    ∀ place ∈ occurrences.located (offset + distance) ((occurrences.pieces text).map framed),
      place.2.opening.isSome ∧
        ∃ index, (inserted distance ((spansFrom offset text).flatMap Span.ends))[2 * index]? =
          some place.1 := by
  refine bare_induction ?nil ?plain ?found text noDollar offset distance
  case nil =>
    intro offset distance place member
    simp [Pattern.located] at member
  case plain =>
    intro c text _ _ absent ih offset distance place member
    have moved : offset + distance + 1 = offset + 1 + distance := by omega
    rw [occurrences.pieces_cons absent, List.map_cons, framed, Pattern.located, moved] at member
    rw [spansFrom_cons absent]
    exact ih (offset + 1) distance place member
  case found =>
    intro environment rest _ _ _ _ read ih offset distance place member
    have width : (occurrences.source ⟨some [], environment, some []⟩).length =
        environment.source.length + 4 := by
      simp [occurrences, Occurrence.source, Occurrence.before, Occurrence.behind,
        Delimiter.blockMarker, Text.ofString]
    have moved : offset + distance + (environment.source.length + 4) =
        offset + environment.source.length + (distance + 4) := by
      omega
    rw [occurrences.pieces_of_read? read, List.map_cons, framed, Pattern.located, width, moved,
      List.mem_cons] at member
    rw [spansFrom_source read, inserted_source]
    rcases member with rfl | member
    · exact ⟨rfl, 0, rfl⟩
    · obtain ⟨opened, index, here⟩ := ih _ _ place member
      exact ⟨opened, index + 1, here⟩

end Markers

section Stage

variable {text : Text}

theorem isDisplayed_eq_false_of_noDollar (noDollar : '$' ∉ text) (markers : List Nat)
    {place : Nat × Occurrence} (member : place ∈ occurrences.places text) :
    place.2.isDisplayed markers place.1 = false := by
  obtain ⟨left, right, rest, rfl, _, read⟩ := occurrences.exists_read?_of_mem_places member
  rw [occurrences.eq_of_read? read, List.mem_append, List.mem_append, not_or, not_or] at noDollar
  have inside : '$' ∉ place.2.source := noDollar.2.1
  rw [Occurrence.eq_of_noDollar inside]
  refine isDisplayed_eq_false_of_bare markers place.1 fun member => inside ?_
  exact List.mem_append_left _ (List.mem_append_right _ member)

theorem wrapped_of_noDollar (noDollar : '$' ∉ text) : wrapped text = spans text := by
  rw [wrapped, bareSpans, List.filter_eq_self.mpr, spans]
  intro place member
  rw [isDisplayed_eq_false_of_noDollar noDollar _ member]
  rfl

theorem blockMatrices_of_noDollar (noDollar : '$' ∉ text) : blockMatrices text = frame text := by
  rw [frame, ← occurrences.substituteAt_const]
  refine occurrences.substituteAt_congr fun place member => ?_
  rw [isDisplayed_eq_false_of_noDollar noDollar _ member]
  rfl

/-- In a text without dollars each environment gets a marker before and a marker behind it.  As long
as no backslash stands before one, the markers of the result are those that were put in, opening and
closing in turn, and the result is left alone. -/
theorem matrices_without_dollars_are_framed (noDollar : '$' ∉ text)
    (unescaped : ∀ span ∈ spans text, (text.take span.start).getLast? ≠ some '\\') :
    blockMatrices text = insertAt 0 text ((spans text).flatMap Span.ends) ∧
      offsets (blockMatrices text) = inserted 0 ((spans text).flatMap Span.ends) ∧
      blockMatrices (blockMatrices text) = blockMatrices text := by
  have markers := offsets_frame noDollar unescaped
  have parts := blockMatrices_eq_insertAt text
  rw [wrapped_of_noDollar noDollar] at parts
  refine ⟨parts, ?_⟩
  rw [blockMatrices_of_noDollar noDollar, blockMatrices_eq_self_iff]
  refine ⟨markers, fun place member => ?_⟩
  rw [Pattern.places, pieces_frame noDollar] at member
  obtain ⟨opened, index, here⟩ := opening_of_mem_located_framed noDollar 0 0 place member
  have opening : opensAt (offsets (frame text)) place.1 = true :=
    opensAt_offsets_iff.mpr ⟨index, by rw [markers]; exact here⟩
  simp [Occurrence.isDisplayed, opened, opening]

/-- An environment in another one, a third one flush behind them, and one that is not closed. -/
def crowded : Text :=
  Environment.source ⟨"matrix", Environment.source ⟨"cases", "1"⟩⟩ ++
    Environment.source ⟨"cases", "2"⟩ ++ Environment.opening "pmatrix"

/-- Four dollars in a row close the first environment and open the next one. -/
theorem matrices_without_dollars_are_framed_of_crowded :
    ('$' ∉ crowded ∧
        ∀ span ∈ spans crowded, (crowded.take span.start).getLast? ≠ some '\\') ∧
      offsets (blockMatrices crowded) = [0, 53, 55, 82] ∧
      blockMatrices (blockMatrices crowded) = blockMatrices crowded := by
  have noDollar : '$' ∉ crowded := by decide
  have unescaped : ∀ span ∈ spans crowded, (crowded.take span.start).getLast? ≠ some '\\' := by
    decide +kernel
  obtain ⟨_, markers, stable⟩ := matrices_without_dollars_are_framed noDollar unescaped
  exact ⟨⟨noDollar, unescaped⟩, markers.trans (by decide +kernel), stable⟩

end Stage

end Matrix
end DollarMath
