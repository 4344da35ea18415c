import DollarMath.Markup.Matrix
import DollarMath.Proofs.Markup.Chunk
import DollarMath.Proofs.Markup.Delimiter
import DollarMath.Proofs.Markup.Environment
import Mathlib.Data.List.TakeWhile

/-!
# Matrix environments in displayed formulas

The stage leaves a text alone exactly when every matrix environment in it counts as displayed.
For one environment in one displayed formula this is read off the two texts around it: the
environment counts as displayed when one of them is a gap, and else the formula falls into three.
-/

namespace DollarMath
namespace Matrix

section Stage

theorem displayed_eq_source_iff {displayed : Bool} (occurrence : Occurrence) :
    (if displayed then occurrence.source else occurrence.displayed) = occurrence.source ↔
      displayed = true := by
  cases displayed with
  | true => simp
  | false =>
      refine iff_of_false ?_ (by simp)
      intro same
      have lengths := congrArg List.length same
      simp only [Bool.false_eq_true, if_false, Occurrence.displayed, Occurrence.source,
        Delimiter.blockMarker, Text.ofString, List.length_append] at lengths
      simp at lengths
      omega

theorem raises_occurrence {displayed : Bool} (occurrence : Occurrence) :
    (if displayed then occurrence.source else occurrence.displayed) = occurrence.source ∨
      Text.weigh Text.markWeight occurrence.source <
        Text.weigh Text.markWeight
          (if displayed then occurrence.source else occurrence.displayed) := by
  have marker : Text.weigh Text.markWeight Delimiter.blockMarker = 20 := by decide
  cases displayed with
  | true => exact .inl rfl
  | false =>
      right
      simp only [Bool.false_eq_true, if_false, Occurrence.displayed, Occurrence.source,
        Text.weigh_append, marker]
      omega

theorem raises_blockMatrices : Text.Raises Text.markWeight blockMatrices := fun text =>
  occurrences.substituteAt_eq_self_or_weigh_lt
    (fun _ occurrence _ => raises_occurrence occurrence) text

theorem blockMatrices_eq_self_iff {text : Text} :
    blockMatrices text = text ↔
      ∀ place ∈ occurrences.places text,
        place.2.isDisplayed (Marker.offsets text) place.1 = true := by
  rw [blockMatrices, occurrences.substituteAt_eq_self_iff
    fun _ occurrence _ => raises_occurrence occurrence]
  exact forall₂_congr fun place _ => displayed_eq_source_iff place.2

end Stage

section Gap

/-- Spaces and tabs with at most one line break among them. -/
def IsGap (text : Text) : Prop :=
  (∀ c ∈ text, Text.isSpaceOrTab c = true ∨ c = '\n') ∧ text.count '\n' ≤ 1

instance : DecidablePred IsGap := fun text =>
  decidable_of_iff
    (text.all (fun c => Text.isSpaceOrTab c || c == '\n') = true ∧ text.count '\n' ≤ 1)
    (by simp [IsGap])

theorem takeWhile_append_cons {p : Char → Bool} {c : Char} (stop : p c = false)
    (text rest : Text) : (text ++ c :: rest).takeWhile p = text.takeWhile p := by
  induction text with
  | nil => simp [stop]
  | cons d text ih => simp only [List.cons_append, List.takeWhile_cons, ih]

theorem dropWhile_append_cons {p : Char → Bool} {c : Char} (stop : p c = false)
    (text rest : Text) : (text ++ c :: rest).dropWhile p = text.dropWhile p ++ c :: rest := by
  induction text with
  | nil => simp [stop]
  | cons d text ih =>
      simp only [List.cons_append, List.dropWhile_cons, ih]
      split <;> rfl

theorem isGap_of_margin {margin : Text} (plain : ∀ c ∈ margin, Text.isSpaceOrTab c = true)
    (text : Text) :
    IsGap (margin ++ text) ↔ IsGap text := by
  have noBreak : margin.count '\n' = 0 := by
    refine List.count_eq_zero_of_not_mem fun member => ?_
    exact absurd (plain _ member) (by decide)
  simp only [IsGap, List.count_append, noBreak, Nat.zero_add, List.forall_mem_append]
  constructor
  · rintro ⟨⟨_, all⟩, few⟩
    exact ⟨all, few⟩
  · rintro ⟨all, few⟩
    exact ⟨⟨fun c member => .inl (plain c member), all⟩, few⟩

theorem isGap_cons_break {text : Text} :
    IsGap ('\n' :: text) ↔ ∀ c ∈ text, Text.isSpaceOrTab c = true := by
  simp only [IsGap, List.forall_mem_cons, or_true, true_and, List.count_cons_self]
  constructor
  · rintro ⟨all, few⟩ c member
    refine (all c member).resolve_right ?_
    rintro rfl
    have some := List.count_pos_iff.mpr member
    omega
  · intro plain
    have noBreak : text.count '\n' = 0 := by
      refine List.count_eq_zero_of_not_mem fun member => ?_
      exact absurd (plain _ member) (by decide)
    exact ⟨fun c member => .inl (plain c member), by omega⟩

theorem readGap_of_break {text next : Text}
    (behind : text.dropWhile Text.isSpaceOrTab = '\n' :: next) :
    readGap text = (text.takeWhile Text.isSpaceOrTab ++ '\n' :: next.takeWhile Text.isSpaceOrTab,
      next.dropWhile Text.isSpaceOrTab) := by
  simp only [readGap, behind]

theorem readGap_of_no_break {text : Text}
    (behind : ∀ next, text.dropWhile Text.isSpaceOrTab ≠ '\n' :: next) :
    readGap text = (text.takeWhile Text.isSpaceOrTab, text.dropWhile Text.isSpaceOrTab) := by
  rw [readGap]
  split
  · rename_i next same
    exact absurd same (behind next)
  · rfl

theorem readGap_append_cons_of_no_break {c : Char} (stop : Text.isSpaceOrTab c = false)
    (noBreak : c ≠ '\n') (text : Text)
    (behind : ∀ next, text.dropWhile Text.isSpaceOrTab ≠ '\n' :: next) (rest : Text) :
    readGap (text ++ c :: rest) =
      (text.takeWhile Text.isSpaceOrTab, text.dropWhile Text.isSpaceOrTab ++ c :: rest) := by
  have noLineEnd : ∀ next, (text ++ c :: rest).dropWhile Text.isSpaceOrTab ≠ '\n' :: next := by
    intro next same
    rw [dropWhile_append_cons stop] at same
    rcases List.append_eq_cons_iff.mp same with ⟨_, here⟩ | ⟨_, here, _⟩
    · exact noBreak (List.cons.inj here).1
    · exact behind _ here
  rw [readGap_of_no_break noLineEnd, takeWhile_append_cons stop, dropWhile_append_cons stop]

theorem readGap_append_cons {c : Char} (visible : Text.isBlank c = false) (text : Text) :
    ∃ gap behind, text = gap ++ behind ∧ (behind = [] ↔ IsGap text) ∧
      ∀ rest, readGap (text ++ c :: rest) = (gap, behind ++ c :: rest) := by
  have stop : Text.isSpaceOrTab c = false := by
    rw [← Bool.not_eq_true]
    intro plain
    simp [Text.isBlank_of_isSpaceOrTab plain] at visible
  have noBreak : c ≠ '\n' := (Text.ne_of_isBlank (by decide) visible).symm
  have line := List.takeWhile_append_dropWhile (p := Text.isSpaceOrTab) (l := text)
  have margin : ∀ d ∈ text.takeWhile Text.isSpaceOrTab, Text.isSpaceOrTab d = true :=
    fun d member => List.mem_takeWhile_imp member
  have gap : IsGap text ↔ IsGap (text.dropWhile Text.isSpaceOrTab) := by
    have whole := isGap_of_margin margin (text.dropWhile Text.isSpaceOrTab)
    rwa [line] at whole
  have onLine := readGap_append_cons_of_no_break stop noBreak text
  have after := dropWhile_append_cons stop text
  rw [gap]
  cases behind : text.dropWhile Text.isSpaceOrTab with
  | nil =>
      rw [behind] at line onLine
      exact ⟨_, [], line.symm, by simp [IsGap], onLine (by simp)⟩
  | cons d next =>
      rw [behind] at line onLine
      by_cases lineEnd : d = '\n'
      · subst lineEnd
        simp only [behind, List.cons_append] at after
        have line' := List.takeWhile_append_dropWhile (p := Text.isSpaceOrTab) (l := next)
        refine ⟨text.takeWhile Text.isSpaceOrTab ++ '\n' :: next.takeWhile Text.isSpaceOrTab,
          next.dropWhile Text.isSpaceOrTab, ?_, ?_, fun rest => ?_⟩
        · rw [List.append_assoc, List.cons_append, line', line]
        · rw [isGap_cons_break, List.dropWhile_eq_nil_iff]
        · rw [readGap_of_break (after rest), takeWhile_append_cons stop text,
            takeWhile_append_cons stop, dropWhile_append_cons stop]
      · refine ⟨_, d :: next, line.symm, ?_, onLine fun next same => lineEnd (List.cons.inj same).1⟩
        refine iff_of_false (List.cons_ne_nil d next) fun isGap => ?_
        have notPlain := List.head?_dropWhile_not Text.isSpaceOrTab text
        rw [behind] at notPlain
        rcases isGap.1 d List.mem_cons_self with plain | same
        · exact absurd (plain.symm.trans notPlain) (by decide)
        · exact lineEnd same

theorem readGap_source (text : Text) (environment : Environment) (rest : Text) :
    ∃ gap behind, text = gap ++ behind ∧ (behind = [] ↔ IsGap text) ∧
      readGap (text ++ (environment.source ++ rest)) =
        (gap, behind ++ (environment.source ++ rest)) := by
  obtain ⟨gap, behind, parts, isGap, read⟩ :=
    readGap_append_cons (by decide : Text.isBlank '\\' = false) text
  exact ⟨gap, behind, parts, isGap, read _⟩

/-- A text with a visible character has the same gap whatever follows it. -/
theorem readGap_append_right {text : Text} (visible : ¬ Text.isBlankText text) (rest : Text) :
    readGap (text ++ rest) = ((readGap text).1, (readGap text).2 ++ rest) := by
  obtain ⟨c, member, noBlank⟩ : ∃ c ∈ text, Text.isBlank c = false := by
    simpa [Text.isBlankText_iff] using visible
  obtain ⟨front, later, rfl⟩ := List.append_of_mem member
  obtain ⟨gap, behind, _, _, read⟩ := readGap_append_cons noBlank front
  rw [List.append_assoc, List.cons_append, read, read, List.append_assoc, List.cons_append]

end Gap

section Absence

theorem begin_prefix_of_readClosed? {text rest : Text} {environment : Environment}
    {closing : Option Text} (read : readClosed? text = some (environment, closing, rest)) :
    Text.ofString "\\begin" <+: text := by
  simp only [readClosed?, Option.map_eq_some_iff] at read
  obtain ⟨_, named, _⟩ := read
  exact Environment.begin_prefix_of_read? named

theorem readClosed?_eq_none {text : Text} (noBegin : ¬ Text.ofString "\\begin" <+: text) :
    readClosed? text = none := by
  cases read : readClosed? text with
  | none => rfl
  | some found => exact absurd (begin_prefix_of_readClosed? read) noBegin

/-- Behind block markers an environment is read with the gap before it. -/
theorem read?_blockMarker {inside gap behind : Text} (gapRead : readGap inside = (gap, behind)) :
    occurrences.read? (Delimiter.blockMarker ++ inside) =
      (readClosed? behind).map fun (environment, closing, rest) =>
        (⟨some gap, environment, closing⟩, rest) := by
  change read? (Delimiter.blockMarker ++ inside) = _
  rw [read?, Text.after?_append]
  simp only [gapRead]

/-- Elsewhere an environment is read without a gap before it. -/
theorem read?_of_unopened {text : Text} (unopened : ¬ Delimiter.blockMarker <+: text) :
    occurrences.read? text =
      (readClosed? text).map fun (environment, closing, rest) =>
        (⟨none, environment, closing⟩, rest) := by
  change read? text = _
  rw [read?, Text.after?_eq_none_iff.mpr unopened]

theorem occurrences_absent {text : Text} (noBegin : ¬ Text.ofString "\\begin" <:+: text) :
    occurrences.Absent text := by
  intro rest suffix
  have absent : ∀ part, part <:+ rest → readClosed? part = none := by
    intro part inside
    refine readClosed?_eq_none fun front => noBegin ?_
    exact (front.isInfix.trans inside.isInfix).trans suffix.isInfix
  by_cases opened : Delimiter.blockMarker <+: rest
  · obtain ⟨inside, rfl⟩ := opened
    have behind : (readGap inside).2 <:+ Delimiter.blockMarker ++ inside :=
      ⟨Delimiter.blockMarker ++ (readGap inside).1, by rw [List.append_assoc, readGap_append]⟩
    have gapRead : readGap inside = ((readGap inside).1, (readGap inside).2) := rfl
    rw [read?_blockMarker gapRead, absent _ behind, Option.map_none]
  · rw [read?_of_unopened opened, absent rest List.suffix_rfl, Option.map_none]

theorem blockMatrices_of_no_begin {text : Text} (noBegin : ¬ Text.ofString "\\begin" <:+: text) :
    blockMatrices text = text := by
  rw [blockMatrices, Pattern.substituteAt_of_absent]
  exact occurrences_absent noBegin

theorem name_mem_of_readClosed? {text rest : Text} {environment : Environment}
    {closing : Option Text} (read : readClosed? text = some (environment, closing, rest)) :
    environment.name ∈ names := by
  simp only [readClosed?, Option.map_eq_some_iff, Prod.exists] at read
  obtain ⟨found, _, named, read⟩ := read
  have member := Environment.name_mem_of_read? named
  split at read <;> cases read <;> exact member

theorem name_mem_of_occurs {occurrence : Occurrence} (occurs : occurrences.Occurs occurrence) :
    occurrence.environment.name ∈ names := by
  obtain ⟨text, rest, read⟩ := occurs
  change read? text = some (occurrence, rest) at read
  rw [read?] at read
  split at read
  all_goals
    obtain ⟨⟨environment, closing, behind⟩, closed, same⟩ := Option.map_eq_some_iff.mp read
    cases same
    exact name_mem_of_readClosed? closed

/-- The word that starts environments is not at the front of a text before an environment. -/
theorem not_begin_prefix_append {text : Text} (environment : Environment) (rest : Text)
    (nonempty : text ≠ []) (noBegin : ¬ Text.ofString "\\begin" <:+: text) :
    ¬ Text.ofString "\\begin" <+: text ++ (environment.source ++ rest) := by
  intro front
  exact noBegin (Text.prefix_of_prefix_append_cons (by decide) nonempty front).isInfix

theorem read?_append_eq_none {text : Text} (environment : Environment) (rest : Text)
    (nonempty : text ≠ []) (noBegin : ¬ Text.ofString "\\begin" <:+: text)
    (noDollar : '$' ∉ text) :
    occurrences.read? (text ++ (environment.source ++ rest)) = none := by
  have closed := readClosed?_eq_none (not_begin_prefix_append environment rest nonempty noBegin)
  have unopened : ¬ Delimiter.blockMarker <+: text ++ (environment.source ++ rest) :=
    Text.not_prefix_append_of_head_not_mem nonempty noDollar _
  rw [read?_of_unopened unopened, closed, Option.map_none]

end Absence

/-- What a text around a matrix environment may hold: no dollars, no environments of its own, no
command or delimiter that is replaced, and at its end no backslash that escapes a marker. -/
structure IsPlain (text : Text) : Prop where
  /-- No dollar stands in the text. -/
  no_dollar : '$' ∉ text
  /-- No environment starts in the text. -/
  no_begin : ¬ Text.ofString "\\begin" <:+: text
  /-- No environment ends in the text. -/
  no_end : ¬ Text.ofString "\\end" <:+: text
  /-- No display-style command stands in the text. -/
  no_command : ¬ DisplayStyle.command <:+: text
  /-- No delimiter stands in the text. -/
  no_delimiter : ∀ word ∈ Delimiter.words, ¬ word <:+: text
  /-- The last visible character is no backslash. -/
  no_backslash : (Text.stripEnd text).getLast? ≠ some '\\'

instance : DecidablePred IsPlain := fun text =>
  decidable_of_iff
    ('$' ∉ text ∧ ¬ Text.ofString "\\begin" <:+: text ∧ ¬ Text.ofString "\\end" <:+: text ∧
      ¬ DisplayStyle.command <:+: text ∧ (∀ word ∈ Delimiter.words, ¬ word <:+: text) ∧
      (Text.stripEnd text).getLast? ≠ some '\\')
    ⟨fun ⟨noDollar, noBegin, noEnd, noCommand, noDelimiter, noBackslash⟩ =>
        ⟨noDollar, noBegin, noEnd, noCommand, noDelimiter, noBackslash⟩,
      fun ⟨noDollar, noBegin, noEnd, noCommand, noDelimiter, noBackslash⟩ =>
        ⟨noDollar, noBegin, noEnd, noCommand, noDelimiter, noBackslash⟩⟩

section Single

variable {name before body behind : Text}

theorem names_plain : ∀ name ∈ names, '\x7d' ∉ name ∧ '\\' ∉ name ∧ '$' ∉ name := by
  decide

theorem absent_behind (plain : IsPlain behind) :
    occurrences.Absent (behind ++ Delimiter.blockMarker) := by
  refine occurrences_absent fun inside => ?_
  have noDollar : '$' ∉ Text.ofString "\\begin" := by decide
  have parts : Text.ofString "\\begin" <:+: behind ∨ Text.ofString "\\begin" <:+: ['$'] :=
    (Text.infix_append_cons_iff_of_not_mem noDollar (by decide)).mp inside
  rcases parts with inside | inside
  · exact plain.no_begin inside
  · exact absurd (inside.subset (by decide : '\\' ∈ _)) (by decide)

/-- The environment takes the gap behind it along when that is all up to the marker. -/
theorem readClosed?_source (member : name ∈ names) (plainBody : IsPlain body)
    (plain : IsPlain behind) :
    ∃ closing rest,
      readClosed? (Environment.source ⟨name, body⟩ ++ (behind ++ Delimiter.blockMarker)) =
        some (⟨name, body⟩, closing, rest) ∧
      occurrences.Absent rest ∧
      (IsGap behind → closing = some behind ∧ rest = []) ∧ (¬ IsGap behind → closing = none) := by
  have unclosed : ¬ Environment.closing name <:+: body := by
    intro inside
    refine plainBody.no_end (List.IsInfix.trans ?_ inside)
    exact ⟨[], "\x7b" ++ name ++ "\x7d", by simp [Environment.closing, Text.ofString]⟩
  have named := Environment.read?_source
    (fun name member => ⟨(names_plain name member).1, (names_plain name member).2.1⟩) member
    unclosed (behind ++ Delimiter.blockMarker)
  obtain ⟨gap, tail, parts, isGap, gapRead⟩ :=
    readGap_append_cons (by decide : Text.isBlank '$' = false) behind
  replace gapRead : readGap (behind ++ Delimiter.blockMarker) =
      (gap, tail ++ Delimiter.blockMarker) := gapRead ['$']
  rw [readClosed?, named, Option.map_some]
  simp only [gapRead]
  by_cases empty : tail = []
  · subst empty
    rw [List.append_nil] at parts
    subst parts
    refine ⟨some behind, [], ?_, ?_, fun _ => ⟨rfl, rfl⟩, fun noGap => absurd (isGap.mp rfl) noGap⟩
    · rfl
    · exact occurrences_absent (by decide)
  · have noDollar : '$' ∉ tail := by
      intro inside
      refine plain.no_dollar ?_
      rw [parts]
      exact List.mem_append_right gap inside
    have unopened : Text.after? Delimiter.blockMarker (tail ++ Delimiter.blockMarker) = none :=
      Text.after?_eq_none_iff.mpr (Text.not_prefix_append_of_head_not_mem empty noDollar _)
    rw [unopened]
    exact ⟨none, _, rfl, absent_behind plain, fun isGap' => absurd (isGap.mpr isGap') empty,
      fun _ => rfl⟩

theorem isInert_of_isPlain {text : Text} (plain : IsPlain text) : Marker.IsInert text :=
  ⟨plain.no_dollar, by rw [← Text.getLast?_stripEnd]; exact plain.no_backslash⟩

theorem isInert_source (member : name ∈ names) (plainBody : IsPlain body) :
    Marker.IsInert (Environment.source ⟨name, body⟩) := by
  have noDollar := (names_plain name member).2.2
  constructor
  · simp [Environment.source, Environment.opening, Environment.closing, Text.ofString, noDollar,
      plainBody.no_dollar]
  · have last := Environment.getLast?_source ⟨name, body⟩
    rw [Text.lastVisible_eq_of_getLast? (by decide) last]
    decide

section Formula

theorem join_block (content : Text) :
    Marker.join [[], content, []] =
      Delimiter.blockMarker ++ (content ++ Delimiter.blockMarker) := by
  simp [Marker.join_cons, Delimiter.blockMarker, Text.ofString]

theorem offsets_join_block {content : Text} (inert : Marker.IsInert content) :
    Marker.offsets (Marker.join [[], content, []]) = [0, content.length + 2] := by
  have all : ∀ chunk ∈ [[], content, []], Marker.IsInert chunk := by
    simp [Marker.isInert_nil, inert]
  rw [Marker.offsets_join (by simp) all]
  simp [Marker.offsetsOf, Nat.add_comm]

theorem opensAt_first (last : Nat) : Marker.opensAt [0, last] 0 = true := by
  simp [Marker.opensAt, List.idxOf?, List.findIdx?_cons]

theorem closesAt_last (last : Nat) : Marker.closesAt [0, last + 2] (last + 2) = true := by
  simp [Marker.closesAt, List.idxOf?, List.findIdx?_cons]

theorem isDisplayed_of_gap_behind (before behind : Text) (environment : Environment) :
    Occurrence.isDisplayed [0, (before ++ (environment.source ++ behind)).length + 2]
      (Delimiter.blockMarker ++ before).length ⟨none, environment, some behind⟩ = true := by
  have last : (Delimiter.blockMarker ++ before).length +
      (Occurrence.source ⟨none, environment, some behind⟩).length -
        Delimiter.blockMarker.length =
      (before ++ (environment.source ++ behind)).length + 2 := by
    simp only [Occurrence.source, Occurrence.before, Occurrence.behind, List.length_append]
    simp [Delimiter.blockMarker, Text.ofString]
    omega
  rw [Occurrence.isDisplayed, last, closesAt_last]
  simp

theorem isDisplayed_eq_false_of_bare (markers : List Nat) (offset : Nat)
    {environment : Environment} (noDollar : '$' ∉ environment.source) :
    Occurrence.isDisplayed markers offset ⟨none, environment, none⟩ = false := by
  have noMarker : Text.occursIn Delimiter.blockMarker environment.source = false := by
    rw [← Bool.not_eq_true, Text.occursIn_iff]
    exact fun inside => noDollar (inside.subset (by decide))
  simp [Occurrence.isDisplayed, noMarker]

variable (member : name ∈ names) (plainBefore : IsPlain before) (plainBody : IsPlain body)
  (plain : IsPlain behind)

include member plainBefore plainBody plain

theorem isInert_formula :
    Marker.IsInert (before ++ (Environment.source ⟨name, body⟩ ++ behind)) :=
  (isInert_of_isPlain plainBefore).append
    ((isInert_source member plainBody).append (isInert_of_isPlain plain))

/-- An environment a gap behind the opening marker stays where it is. -/
theorem blockMatrices_of_gap_before (gap : IsGap before) :
    blockMatrices (Marker.join [[], before ++ (Environment.source ⟨name, body⟩ ++ behind), []]) =
      Marker.join [[], before ++ (Environment.source ⟨name, body⟩ ++ behind), []] := by
  obtain ⟨closing, rest, closed, absent, _⟩ := readClosed?_source member plainBody plain
  obtain ⟨margin, tail, parts, isGap, gapRead⟩ :=
    readGap_source before ⟨name, body⟩ (behind ++ Delimiter.blockMarker)
  obtain rfl := isGap.mpr gap
  rw [List.append_nil] at parts
  subst parts
  have read : occurrences.read?
      (Marker.join [[], before ++ (Environment.source ⟨name, body⟩ ++ behind), []]) =
        some (⟨some before, ⟨name, body⟩, closing⟩, rest) := by
    rw [join_block, List.append_assoc, List.append_assoc, read?_blockMarker gapRead,
      List.nil_append, closed]
    rfl
  have displayed : Occurrence.isDisplayed
      (Marker.offsets (Marker.join [[], before ++ (Environment.source ⟨name, body⟩ ++ behind), []]))
      0 ⟨some before, ⟨name, body⟩, closing⟩ = true := by
    rw [offsets_join_block (isInert_formula member plainBefore plainBody plain),
      Occurrence.isDisplayed, opensAt_first]
    simp
  have front : ∀ tail, tail ≠ [] → tail <:+ ([] : Text) → occurrences.read? (tail ++
      Marker.join [[], before ++ (Environment.source ⟨name, body⟩ ++ behind), []]) = none :=
    fun tail nonempty suffix => absurd (List.suffix_nil.mp suffix) nonempty
  have single := fun write => occurrences.substituteAt_of_single write front read absent
  simp only [List.nil_append, List.length_nil] at single
  rw [blockMatrices, single, if_pos displayed]
  exact (occurrences.eq_of_read? read).symm

omit member plainBody plain

/-- No occurrence starts at a marker behind which stands more than a gap. -/
theorem read?_eq_none_of_not_gap (environment : Environment) (rest : Text)
    (noGap : ¬ IsGap before) {tail : Text} (nonempty : tail ≠ [])
    (suffix : tail <:+ Delimiter.blockMarker ++ before) :
    occurrences.read? (tail ++ (environment.source ++ rest)) = none := by
  have noBegin : ∀ part, part <:+: before → ¬ Text.ofString "\\begin" <:+: part :=
    fun part inside found => plainBefore.no_begin (found.trans inside)
  rcases List.suffix_cons_iff.mp suffix with rfl | suffix
  · obtain ⟨gap, behind, parts, isGap, gapRead⟩ := readGap_source before environment rest
    have visible : behind ≠ [] := fun empty => noGap (isGap.mp empty)
    have later : behind <:+: before := ⟨gap, [], by rw [List.append_nil]; exact parts.symm⟩
    change occurrences.read?
      (Delimiter.blockMarker ++ (before ++ (environment.source ++ rest))) = none
    rw [read?_blockMarker gapRead, readClosed?_eq_none, Option.map_none]
    exact not_begin_prefix_append environment rest visible (noBegin behind later)
  · rcases List.suffix_cons_iff.mp suffix with rfl | suffix
    · have nonempty : before ≠ [] := by
        rintro rfl
        exact noGap (by decide)
      have unopened : ¬ Delimiter.blockMarker <+:
          '$' :: (before ++ (environment.source ++ rest)) := by
        intro front
        have next := (List.cons_prefix_cons.mp front).2
        exact Text.not_prefix_append_of_head_not_mem nonempty plainBefore.no_dollar _ next
      change occurrences.read? ('$' :: (before ++ (environment.source ++ rest))) = none
      rw [read?_of_unopened unopened, readClosed?_eq_none, Option.map_none]
      intro front
      exact absurd (List.cons_prefix_cons.mp front).1 (by decide)
    · exact read?_append_eq_none environment rest nonempty (noBegin tail suffix.isInfix)
        fun member => plainBefore.no_dollar (suffix.subset member)

include member plainBody plain

/-- Behind more than a gap the environment stays when a gap is behind it, and else the formula
falls into three. -/
theorem blockMatrices_of_not_gap_before (noGap : ¬ IsGap before) :
    blockMatrices (Marker.join [[], before ++ (Environment.source ⟨name, body⟩ ++ behind), []]) =
      if IsGap behind then
        Marker.join [[], before ++ (Environment.source ⟨name, body⟩ ++ behind), []]
      else Marker.join [[], before, Environment.source ⟨name, body⟩, behind, []] := by
  obtain ⟨closing, rest, closed, absent, isGap, notGap⟩ :=
    readClosed?_source member plainBody plain
  have read : occurrences.read?
      (Environment.source ⟨name, body⟩ ++ (behind ++ Delimiter.blockMarker)) =
        some (⟨none, ⟨name, body⟩, closing⟩, rest) := by
    have unopened : ¬ Delimiter.blockMarker <+:
        Environment.source ⟨name, body⟩ ++ (behind ++ Delimiter.blockMarker) := by
      intro front
      exact absurd (List.cons_prefix_cons.mp front).1 (by decide)
    rw [read?_of_unopened unopened, closed]
    rfl
  have markers := offsets_join_block (isInert_formula member plainBefore plainBody plain)
  have single := fun write => occurrences.substituteAt_of_single write
    (fun tail nonempty suffix =>
      read?_eq_none_of_not_gap plainBefore ⟨name, body⟩ (behind ++ Delimiter.blockMarker) noGap
        nonempty suffix) read absent
  have whole : Marker.join [[], before ++ (Environment.source ⟨name, body⟩ ++ behind), []] =
      (Delimiter.blockMarker ++ before) ++
        (Environment.source ⟨name, body⟩ ++ (behind ++ Delimiter.blockMarker)) := by
    simp [join_block]
  have parts := occurrences.eq_of_read? read
  rw [blockMatrices, markers]
  conv_lhs => rw [whole, single]
  by_cases gap : IsGap behind
  · obtain ⟨rfl, rfl⟩ := isGap gap
    rw [if_pos (isDisplayed_of_gap_behind before behind _), if_pos gap, whole]
    exact congrArg _ parts.symm
  · obtain rfl := notGap gap
    have bare := fun markers offset =>
      isDisplayed_eq_false_of_bare markers offset (isInert_source member plainBody).no_dollar
    have remaining : rest = behind ++ Delimiter.blockMarker := by
      have same : Environment.source ⟨name, body⟩ ++ (behind ++ Delimiter.blockMarker) =
          Environment.source ⟨name, body⟩ ++ rest := by
        simpa [occurrences, Occurrence.source, Occurrence.before, Occurrence.behind] using parts
      exact (List.append_cancel_left same).symm
    rw [bare, if_neg gap, remaining]
    simp [Occurrence.displayed, Occurrence.before, Occurrence.behind, Marker.join_cons,
      Delimiter.blockMarker, Text.ofString]

end Formula

end Single

end Matrix
end DollarMath
