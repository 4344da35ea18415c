import DollarMath.Proofs.Markup.Seam

/-!
# Rejoined blocks

Pulling a closing marker back over a line break puts it next to the last character of the block.
A backslash there escapes the marker, and a dollar there pairs with the marker's first dollar; any
other character leaves it a marker.  So a normalised text is cut again exactly where its tightened
chunks were joined, unless one of its blocks ends in such a character.
-/

namespace DollarMath

/-- The mode behind the next marker. -/
def Mode.across : Mode → Mode
  | .block => .prose
  | .prose => .block
  | .inline => .block

theorem Mode.across_congr {mode mode' : Mode} (same : mode = .block ↔ mode' = .block) :
    mode.across = mode'.across := by
  cases mode <;> cases mode' <;> first | rfl | simp at same

namespace Marker

section Split

variable {mode : Mode} {escaped : Bool} {text chunk next front : Text} {chunks : List Text}

theorem exists_of_modifyHead_eq_cons {before : List Text}
    (cut : before.modifyHead (front ++ ·) = chunk :: chunks) :
    ∃ first, before = first :: chunks ∧ chunk = front ++ first := by
  cases before with
  | nil => simp at cut
  | cons first before =>
      rw [List.modifyHead_cons, List.cons.injEq] at cut
      exact ⟨first, by rw [cut.2], cut.1.symm⟩

theorem prefix_of_split (cut : split mode escaped text = chunk :: chunks) : chunk <+: text := by
  have whole := join_split mode escaped text
  rw [cut] at whole
  cases chunks with
  | nil => rw [← whole, join_singleton]
  | cons next chunks =>
      rw [join_cons _ (List.cons_ne_nil next chunks)] at whole
      exact ⟨_, whole⟩

theorem split_marker (outside : mode ≠ .inline) (text : Text) :
    split mode false ('$' :: '$' :: text) = [] :: split mode.across false text := by
  cases mode with
  | prose => exact split_prose_double text
  | inline => exact absurd rfl outside
  | block => exact split_block_double text

/-- A text starts with a marker, or its first character goes into the first chunk of the rest.  All
that the character does to the rest it does to any other rest, unless that starts with a dollar
where the first one does not. -/
theorem split_cons_cases (mode : Mode) (escaped : Bool) (c : Char) (text : Text) :
    (∃ rest, c = '$' ∧ text = '$' :: rest ∧ escaped = false ∧ mode ≠ .inline) ∨
      ∃ later behind, later.across = mode.across ∧
        ∀ other : Text, (other.head? = some '$' → text.head? = some '$') →
          split mode escaped (c :: other) = (split later behind other).modifyHead ([c] ++ ·) := by
  generalize whole : c :: text = start
  induction mode, escaped, start using split_induction with
  | nil => cases whole
  | opening rest _ =>
      cases whole
      exact .inl ⟨rest, rfl, rfl, rfl, by decide⟩
  | closing rest _ =>
      cases whole
      exact .inl ⟨rest, rfl, rfl, rfl, by decide⟩
  | dollar mode later text stays step _ =>
      cases whole
      exact .inr ⟨later, false, Mode.across_congr stays, step⟩
  | plain mode escaped c text plain _ =>
      cases whole
      exact .inr ⟨mode.behind [c], c == '\\', Mode.across_congr (mode.behind_eq_block_iff [c]),
        fun other _ => split_cons_of_plain mode plain other⟩

theorem split_of_beginning (cut : split mode escaped text = chunk :: chunks)
    (part : front <+: chunk) : split mode escaped front = [front] := by
  induction text generalizing mode escaped chunk front with
  | nil =>
      obtain rfl : [] = chunk := (List.cons.inj cut).1
      obtain rfl := List.prefix_nil.mp part
      rfl
  | cons c text ih =>
      obtain ⟨rest, rfl, rfl, rfl, outside⟩ | ⟨later, behind, _, step⟩ :=
        split_cons_cases mode escaped c text
      · rw [split_marker outside] at cut
        obtain rfl := (List.cons.inj cut).1
        obtain rfl := List.prefix_nil.mp part
        rfl
      · rw [step text id] at cut
        obtain ⟨first, found, rfl⟩ := exists_of_modifyHead_eq_cons cut
        cases front with
        | nil => rfl
        | cons d front =>
            obtain ⟨rfl, within⟩ := List.cons_prefix_cons.mp part
            have alike : front.head? = some '$' → text.head? = some '$' := by
              intro dollar
              obtain ⟨next, rfl⟩ := List.head?_eq_some_iff.mp dollar
              obtain ⟨rest, rfl⟩ := within.trans (prefix_of_split found)
              rfl
            rw [step front alike, ih found within]
            rfl

/-- A marker cuts a text at the same place whatever follows it. -/
theorem split_append_marker (cut : split mode escaped text = chunk :: next :: chunks) :
    split mode.across false (join (next :: chunks)) = next :: chunks ∧
      ∀ rest, split mode escaped (chunk ++ '$' :: '$' :: rest) =
        chunk :: split mode.across false rest := by
  induction text generalizing mode escaped chunk with
  | nil => simp [split] at cut
  | cons c text ih =>
      obtain ⟨rest, rfl, rfl, rfl, outside⟩ | ⟨later, behind, same, step⟩ :=
        split_cons_cases mode escaped c text
      · rw [split_marker outside] at cut
        obtain ⟨rfl, rest⟩ := List.cons.inj cut
        rw [← rest, join_split]
        exact ⟨rfl, split_marker outside⟩
      · rw [step text id] at cut
        obtain ⟨first, found, rfl⟩ := exists_of_modifyHead_eq_cons cut
        obtain ⟨closed, here⟩ := ih found
        rw [same] at closed here
        refine ⟨closed, fun rest => ?_⟩
        have whole := join_split later behind text
        rw [found, join_cons _ (List.cons_ne_nil next chunks)] at whole
        have alike : (first ++ '$' :: '$' :: rest).head? = some '$' → text.head? = some '$' := by
          rw [← whole]
          cases first <;> exact id
        rw [List.append_assoc, List.singleton_append, step _ alike, here]
        rfl

end Split

section Mask

variable {escaped : Bool} {c : Char} {text : Text}

/-- Dollars directly behind the text would not be read as a marker there: the text ends in a
backslash, or in a dollar that no backslash stands before.  `escaped` tells whether a backslash
stands before the text. -/
def Masks (escaped : Bool) (text : Text) : Prop :=
  Text.escapedBehind escaped text = true ∨
    ∃ front, text = front ++ ['$'] ∧ Text.escapedBehind escaped front = false

theorem masks_nil : Masks escaped [] ↔ escaped = true := by
  simp [Masks, Text.escapedBehind]

theorem masks_singleton : Masks escaped [c] ↔ c = '\\' ∨ c = '$' ∧ escaped = false := by
  have alone : ∀ front : Text, [c] = front ++ ['$'] ↔ front = [] ∧ c = '$' := by
    intro front
    cases front <;> simp
  simp [Masks, Text.escapedBehind, alone]

theorem masks_cons (nonempty : text ≠ []) :
    Masks escaped (c :: text) ↔ Masks (c == '\\') text := by
  have moved : (∃ front, c :: text = front ++ ['$'] ∧ Text.escapedBehind escaped front = false) ↔
      ∃ front, text = front ++ ['$'] ∧ Text.escapedBehind (c == '\\') front = false := by
    constructor
    · rintro ⟨front, same, unescaped⟩
      cases front with
      | nil => exact absurd (List.cons.inj same).2 nonempty
      | cons d front =>
          obtain ⟨rfl, rfl⟩ := List.cons.inj same
          exact ⟨front, rfl, unescaped⟩
    · rintro ⟨front, rfl, unescaped⟩
      exact ⟨c :: front, rfl, unescaped⟩
  rw [Masks, moved, Masks, Text.escapedBehind]

theorem masks_cons_of_plain (plain : ¬ (c = '$' ∧ escaped = false)) :
    Masks escaped (c :: text) ↔ Masks (c == '\\') text := by
  cases text with
  | nil => simp [masks_singleton, masks_nil, plain]
  | cons d text => exact masks_cons (List.cons_ne_nil d text)

theorem modifyHead_eq_cons_iff {before chunks : List Text} {chunk : Text} :
    before.modifyHead ([c] ++ ·) = (c :: chunk) :: chunks ↔ before = chunk :: chunks := by
  cases before <;> simp

/-- A marker behind the content of a block closes it, unless the content masks the marker. -/
theorem split_block_append_marker_iff (quiet : split .block escaped text = [text]) (rest : Text)
    (chunks : List Text) :
    split .block escaped (text ++ '$' :: '$' :: rest) = text :: chunks ↔
      ¬ Masks escaped text ∧ split .prose false rest = chunks := by
  induction text generalizing escaped with
  | nil =>
      rw [masks_nil, List.nil_append]
      cases escaped with
      | false => simp [split_block_double]
      | true =>
          refine iff_of_false (fun cut => ?_) (fun clear => clear.1 rfl)
          rw [split_cons_of_plain .block (by simp)] at cut
          obtain ⟨first, _, same⟩ := exists_of_modifyHead_eq_cons cut
          cases same
  | cons c text ih =>
      by_cases dollar : c = '$' ∧ escaped = false
      · obtain ⟨rfl, rfl⟩ := dollar
        cases text with
        | nil =>
            refine iff_of_false (fun cut => ?_) (fun clear => clear.1 (masks_singleton.mpr ?_))
            · rw [List.cons_append, List.nil_append, split_block_double] at cut
              cases cut
            · exact .inr ⟨rfl, rfl⟩
        | cons d text =>
            have apart : ∀ next, d :: text ≠ '$' :: next := by
              intro next same
              rw [same, split_block_double] at quiet
              cases quiet
            have apart' : ∀ next, d :: text ++ '$' :: '$' :: rest ≠ '$' :: next := by
              intro next same
              exact apart text (by rw [(List.cons.inj same).1])
            rw [split_block_single apart, modifyHead_eq_cons_iff] at quiet
            rw [List.cons_append, split_block_single apart', modifyHead_eq_cons_iff, ih quiet,
              masks_cons (List.cons_ne_nil d text)]
            rfl
      · rw [split_cons_of_plain .block dollar, modifyHead_eq_cons_iff] at quiet
        rw [List.cons_append, split_cons_of_plain .block dollar, modifyHead_eq_cons_iff,
          masks_cons_of_plain dollar]
        exact ih quiet

end Mask
end Marker

namespace Layout

open Marker

/-- The contents of the blocks that a marker closes, in chunks of which the first stands outside
every block. -/
def closedBlocks : List Text → List Text
  | _ :: inside :: next :: chunks => inside :: closedBlocks (next :: chunks)
  | _ => []

theorem closedBlocks_block (outside inside : Text) {chunks : List Text} (nonempty : chunks ≠ []) :
    closedBlocks (outside :: inside :: chunks) = inside :: closedBlocks chunks := by
  cases chunks with
  | nil => exact absurd rfl nonempty
  | cons next chunks => rfl

theorem split_dropLeadingBreaks {text : Text} (quiet : split .block false text = [text]) :
    split .block false (dropLeadingBreaks text) = [dropLeadingBreaks text] := by
  rcases dropLeadingBreaks_cases text with ⟨_, same⟩ | ⟨run, rest, blank, _, rfl, dropped⟩
  · rw [same, quiet]
  · have noDollar : '$' ∉ run ++ ['\n'] := by
      simpa using Text.not_mem_of_isBlankText blank (by decide)
    have unescaped : Text.escapedBehind false (run ++ ['\n']) = false :=
      Text.escapedBehind_eq_false (by simp)
    have whole : run ++ '\n' :: rest = (run ++ ['\n']) ++ rest := by simp
    rw [whole, split_append _ _ noDollar, Mode.behind_block, unescaped] at quiet
    obtain ⟨first, later, same⟩ := exists_of_modifyHead_eq_cons quiet
    rw [dropped, later, List.append_cancel_left same]

/-- Tightened chunks are found again when they are joined, exactly when no block masks the marker
behind it. -/
theorem split_join_tightenBlocks_iff {chunks : List Text}
    (cut : split .prose false (join chunks) = chunks) :
    split .prose false (join (tightenBlocks chunks)) = tightenBlocks chunks ↔
      ∀ block ∈ closedBlocks (tightenBlocks chunks), ¬ Masks false block := by
  fun_induction tightenBlocks chunks with
  | case1 => exact absurd cut (split_ne_nil _ _ _)
  | case2 outside => exact iff_of_true cut (by simp [closedBlocks])
  | case3 outside unclosed =>
      obtain ⟨inside, seam⟩ := split_append_marker cut
      rw [join_singleton] at inside
      refine iff_of_true ?_ (by simp [closedBlocks])
      rw [join_cons _ (List.cons_ne_nil _ _), join_singleton, seam, Mode.across,
        split_dropLeadingBreaks inside]
  | case4 outside inside chunks more ih =>
      have rest : chunks ≠ [] := by simpa using more
      have tight := tightenBlocks_ne_nil rest
      obtain ⟨block, seam⟩ := split_append_marker cut
      obtain ⟨next, later, rfl⟩ := List.exists_cons_of_ne_nil rest
      obtain ⟨behind, _⟩ := split_append_marker block
      have quiet : split .block false (dropTrailingBreaks (dropLeadingBreaks inside)) =
          [dropTrailingBreaks (dropLeadingBreaks inside)] :=
        split_of_beginning (split_dropLeadingBreaks (split_of_beginning block List.prefix_rfl))
          (dropTrailingBreaks_isPrefix _)
      rw [join_cons _ (List.cons_ne_nil _ _), join_cons _ tight, seam, List.cons.injEq,
        eq_self, true_and, Mode.across, split_block_append_marker_iff quiet, ih behind,
        closedBlocks_block _ _ tight, List.forall_mem_cons]

theorem length_tightenBlocks_chunks_settle (text : Text) :
    (tightenBlocks (chunks (settle text))).length = (offsets text).length + 1 := by
  rw [← (tightenBlocks_forall₂ _).length_eq,
    (KeepsMarkers.of_thinsLineEnds (thinsLineEnds_settle text)).length_chunks, length_chunks_eq]

/-- A text is cut into chunks exactly when its markers are the places at which they are joined. -/
theorem chunks_join_eq_iff {chunks : List Text} (nonempty : chunks ≠ []) :
    Marker.chunks (join chunks) = chunks ↔ offsets (join chunks) = offsetsOf 0 chunks := by
  constructor
  · intro cut
    rw [offsets_eq_offsetsOf, cut]
  · intro places
    rw [Marker.chunks, places, cutAt_offsetsOf 0 nonempty]

/-- A normalised text has its markers exactly where its tightened chunks were joined, as many as
the text had, and these chunks between them, if and only if no block that is closed ends in a
backslash or in a dollar without one. -/
theorem offsets_normalize_iff (text : Text) :
    (offsets (normalize text) = offsetsOf 0 (tightenBlocks (chunks (settle text))) ∧
        (offsets (normalize text)).length = (offsets text).length ∧
        chunks (normalize text) = tightenBlocks (chunks (settle text))) ↔
      ∀ block ∈ closedBlocks (tightenBlocks (chunks (settle text))), ¬ Masks false block := by
  have cut : split .prose false (join (chunks (settle text))) = chunks (settle text) := by
    rw [join_chunks, chunks_eq_split]
  have tight := tightenBlocks_ne_nil (chunks_ne_nil (settle text))
  rw [← split_join_tightenBlocks_iff cut, ← chunks_eq_split, ← normalize_eq]
  constructor
  · exact fun kept => kept.2.2
  · intro kept
    have places : offsets (normalize text) =
        offsetsOf 0 (tightenBlocks (chunks (settle text))) := by
      rw [normalize_eq] at kept ⊢
      exact (chunks_join_eq_iff tight).mp kept
    have count := length_chunks_eq (normalize text)
    rw [kept, length_tightenBlocks_chunks_settle] at count
    exact ⟨places, by omega, kept⟩

/-- A row break before the closing marker escapes it when the line break between them goes. -/
theorem offsets_normalize_of_row_break :
    offsets "$$a \\\\\n$$" = [0, 7] ∧
      offsetsOf 0 (tightenBlocks (chunks (settle "$$a \\\\\n$$"))) = [0, 6] ∧
      offsets (normalize "$$a \\\\\n$$") = [0] := by
  decide +kernel

end Layout
end DollarMath
