import DollarMath.Markup.Marker.Scan
import DollarMath.Proofs.Text.Words

/-!
# Chunks

The chunks of a text are found by the machine that finds its markers, when it hands out the
characters between the markers in place of their offsets.  Joined they are the text again, and the
offsets are the places at which they are joined.  A stretch without dollars only moves the
machine to the mode behind the stretch, so chunks are computed stretch by stretch.
-/

namespace DollarMath
namespace Marker

@[simp]
theorem join_singleton (chunk : Text) : join [chunk] = chunk := by
  simp [join, List.intercalate]

theorem join_cons (chunk : Text) {chunks : List Text} (nonempty : chunks ≠ []) :
    join (chunk :: chunks) = chunk ++ '$' :: '$' :: join chunks := by
  cases chunks with
  | nil => exact absurd rfl nonempty
  | cons next chunks =>
      simp [join, List.intercalate, List.intersperse, Delimiter.blockMarker, Text.ofString]

theorem join_modifyHead (front : Text) {chunks : List Text} (nonempty : chunks ≠ []) :
    join (chunks.modifyHead (front ++ ·)) = front ++ join chunks := by
  cases chunks with
  | nil => exact absurd rfl nonempty
  | cons chunk chunks =>
      cases chunks with
      | nil => simp
      | cons next chunks =>
          rw [List.modifyHead_cons, join_cons _ (List.cons_ne_nil next chunks),
            join_cons _ (List.cons_ne_nil next chunks), List.append_assoc]

/-- The texts between the block markers of a text that is entered in `mode`. -/
def split (mode : Mode) (escaped : Bool) : Text → List Text
  | [] => [[]]
  | c :: text =>
      if c = '$' ∧ escaped = false then
        match mode, text with
        | .prose, '$' :: text => [] :: split .block false text
        | .prose, text => (split .inline false text).modifyHead (['$'] ++ ·)
        | .inline, text => (split .prose false text).modifyHead (['$'] ++ ·)
        | .block, '$' :: text => [] :: split .prose false text
        | .block, text => (split .block false text).modifyHead (['$'] ++ ·)
      else (split (mode.behind [c]) (c == '\\') text).modifyHead ([c] ++ ·)

theorem split_ne_nil (mode : Mode) (escaped : Bool) (text : Text) :
    split mode escaped text ≠ [] := by
  have kept : ∀ (front : Text) (chunks : List Text), chunks ≠ [] →
      chunks.modifyHead (front ++ ·) ≠ [] := by
    intro front chunks nonempty
    cases chunks with
    | nil => exact absurd rfl nonempty
    | cons chunk chunks => simp
  fun_induction split mode escaped text <;> simp_all

theorem split_prose_double (text : Text) :
    split .prose false ('$' :: '$' :: text) = [] :: split .block false text :=
  rfl

theorem split_prose_single {text : Text} (apart : ∀ next, text ≠ '$' :: next) :
    split .prose false ('$' :: text) =
      (split .inline false text).modifyHead (['$'] ++ ·) := by
  simp [split.eq_def .prose]

theorem split_inline_dollar (text : Text) :
    split .inline false ('$' :: text) = (split .prose false text).modifyHead (['$'] ++ ·) :=
  rfl

theorem split_block_double (text : Text) :
    split .block false ('$' :: '$' :: text) = [] :: split .prose false text :=
  rfl

theorem split_block_single {text : Text} (apart : ∀ next, text ≠ '$' :: next) :
    split .block false ('$' :: text) = (split .block false text).modifyHead (['$'] ++ ·) := by
  rw [split.eq_def]
  simp

theorem split_cons_of_plain (mode : Mode) {escaped : Bool} {c : Char}
    (plain : ¬ (c = '$' ∧ escaped = false)) (text : Text) :
    split mode escaped (c :: text) =
      (split (mode.behind [c]) (c == '\\') text).modifyHead ([c] ++ ·) := by
  rw [split.eq_def]
  simp only [if_neg plain]

/-- Induction along the reader: the text is at its end, at a marker, at a dollar that is none or at
another character.  What a dollar does to the text behind it, it does to any other text that does
not start with a dollar where the first one does not. -/
theorem split_induction {motive : Mode → Bool → Text → Prop}
    (nil : ∀ mode escaped, motive mode escaped [])
    (opening : ∀ text, motive .block false text → motive .prose false ('$' :: '$' :: text))
    (closing : ∀ text, motive .prose false text → motive .block false ('$' :: '$' :: text))
    (dollar : ∀ mode later text, (later = .block ↔ mode = .block) →
      (∀ other : Text, (other.head? = some '$' → text.head? = some '$') →
        split mode false ('$' :: other) = (split later false other).modifyHead (['$'] ++ ·)) →
      motive later false text → motive mode false ('$' :: text))
    (plain : ∀ mode escaped c text, ¬ (c = '$' ∧ escaped = false) →
      motive (mode.behind [c]) (c == '\\') text → motive mode escaped (c :: text))
    (mode : Mode) (escaped : Bool) (text : Text) : motive mode escaped text := by
  have apart : ∀ {text other : Text}, (∀ next, text = '$' :: next → False) →
      (other.head? = some '$' → text.head? = some '$') → ∀ next, other ≠ '$' :: next := by
    rintro text _ single alike next rfl
    obtain ⟨rest, same⟩ := List.head?_eq_some_iff.mp (alike rfl)
    exact single rest same
  fun_induction split mode escaped text with
  | case1 mode escaped => exact nil mode escaped
  | case2 escaped c front text ih =>
      obtain ⟨rfl, rfl⟩ := front
      exact opening text ih
  | case3 escaped c front text single ih =>
      obtain ⟨rfl, rfl⟩ := front
      exact dollar .prose .inline text (by decide)
        (fun other alike => split_prose_single (apart single alike)) ih
  | case4 escaped c front text ih =>
      obtain ⟨rfl, rfl⟩ := front
      exact dollar .inline .prose text (by decide) (fun other _ => split_inline_dollar other) ih
  | case5 escaped c front text ih =>
      obtain ⟨rfl, rfl⟩ := front
      exact closing text ih
  | case6 escaped c front text single ih =>
      obtain ⟨rfl, rfl⟩ := front
      exact dollar .block .block text Iff.rfl
        (fun other alike => split_block_single (apart single alike)) ih
  | case7 mode escaped c text other ih => exact plain mode escaped c text other ih

/-- Cutting a text into chunks loses nothing but the markers. -/
theorem join_split (mode : Mode) (escaped : Bool) (text : Text) :
    join (split mode escaped text) = text := by
  induction mode, escaped, text using split_induction with
  | nil => rfl
  | opening text ih =>
      rw [split_prose_double, join_cons _ (split_ne_nil _ _ _), ih]
      rfl
  | closing text ih =>
      rw [split_block_double, join_cons _ (split_ne_nil _ _ _), ih]
      rfl
  | dollar mode later text _ step ih =>
      rw [step text id, join_modifyHead _ (split_ne_nil _ _ _), ih]
      rfl
  | plain mode escaped c text plain ih =>
      rw [split_cons_of_plain mode plain, join_modifyHead _ (split_ne_nil _ _ _), ih]
      rfl

/-- The offsets at which chunks are joined, when the first chunk stands at `start`. -/
def offsetsOf (start : Nat) : List Text → List Nat
  | [] => []
  | [_] => []
  | chunk :: next :: chunks =>
      (start + chunk.length) :: offsetsOf (start + chunk.length + 2) (next :: chunks)

theorem offsetsOf_cons (start : Nat) (chunk : Text) {chunks : List Text} (nonempty : chunks ≠ []) :
    offsetsOf start (chunk :: chunks) =
      (start + chunk.length) :: offsetsOf (start + chunk.length + 2) chunks := by
  cases chunks with
  | nil => exact absurd rfl nonempty
  | cons next chunks => rfl

/-- The two markers of a block that the text starts with. -/
theorem offsetsOf_block (start : Nat) (block : Text) {chunks : List Text} (nonempty : chunks ≠ []) :
    offsetsOf start ([] :: block :: chunks) =
      start :: (start + 2 + block.length) :: offsetsOf (start + 2 + block.length + 2) chunks := by
  rw [offsetsOf_cons _ _ (List.cons_ne_nil _ _), offsetsOf_cons _ _ nonempty, List.length_nil,
    Nat.add_zero]

theorem offsetsOf_modifyHead (start : Nat) (front : Text) (chunks : List Text) :
    offsetsOf start (chunks.modifyHead (front ++ ·)) =
      offsetsOf (start + front.length) chunks := by
  match chunks with
  | [] => rfl
  | [_] => rfl
  | chunk :: next :: chunks =>
      have moved : start + (front ++ chunk).length = start + front.length + chunk.length := by
        rw [List.length_append, Nat.add_assoc]
      rw [List.modifyHead_cons, offsetsOf, offsetsOf, moved]

/-- The machine hands out the offsets at which it joins the chunks. -/
theorem scan_eq_offsetsOf (mode : Mode) (escaped : Bool) (start : Nat) (text : Text) :
    scan mode escaped start text = offsetsOf start (split mode escaped text) := by
  fun_induction split mode escaped text generalizing start with
  | case1 => rfl
  | case2 escaped c dollar text ih =>
      obtain ⟨rfl, rfl⟩ := dollar
      rw [scan_prose_double, ih, offsetsOf_cons _ _ (split_ne_nil _ _ _)]
      rfl
  | case3 escaped c dollar text single ih =>
      obtain ⟨rfl, rfl⟩ := dollar
      rw [scan_prose_single _ (fun next same => single next same), ih, offsetsOf_modifyHead]
      rfl
  | case4 escaped c dollar text ih =>
      obtain ⟨rfl, rfl⟩ := dollar
      rw [scan_inline, ih, offsetsOf_modifyHead]
      rfl
  | case5 escaped c dollar text ih =>
      obtain ⟨rfl, rfl⟩ := dollar
      rw [scan_block_double, ih, offsetsOf_cons _ _ (split_ne_nil _ _ _)]
      rfl
  | case6 escaped c dollar text single ih =>
      obtain ⟨rfl, rfl⟩ := dollar
      rw [scan_block_single _ (fun next same => single next same), ih, offsetsOf_modifyHead]
      rfl
  | case7 mode escaped c text plain ih =>
      rw [scan_cons_of_plain mode _ plain, ih, offsetsOf_modifyHead]
      rfl

theorem cutAt_offsetsOf (start : Nat) {chunks : List Text} (nonempty : chunks ≠ []) :
    cutAt start (join chunks) (offsetsOf start chunks) = chunks := by
  induction chunks generalizing start with
  | nil => exact absurd rfl nonempty
  | cons chunk chunks ih =>
      cases chunks with
      | nil => simp [offsetsOf, cutAt]
      | cons next chunks =>
          have more := List.cons_ne_nil next chunks
          have width : start + chunk.length - start = chunk.length := by omega
          have rest : (chunk ++ '$' :: '$' :: join (next :: chunks)).drop (chunk.length + 2) =
              join (next :: chunks) := by
            rw [← List.drop_drop, List.drop_left]
            rfl
          rw [join_cons _ more, offsetsOf_cons _ _ more, cutAt, width, List.take_left, rest,
            ih _ more]

/-- Cutting at the markers and reading chunk by chunk agree. -/
theorem chunks_eq_split (text : Text) : chunks text = split .prose false text := by
  have cut := cutAt_offsetsOf 0 (split_ne_nil .prose false text)
  rwa [join_split, ← scan_eq_offsetsOf, ← offsetsFrom_eq_scan] at cut

theorem offsets_eq_offsetsOf (text : Text) : offsets text = offsetsOf 0 (chunks text) := by
  rw [chunks_eq_split, ← scan_eq_offsetsOf, ← offsetsFrom_eq_scan, offsets]

@[simp]
theorem join_chunks (text : Text) : join (chunks text) = text := by
  rw [chunks_eq_split, join_split]

section Stretch

theorem modifyHead_append (front next : Text) (chunks : List Text) :
    (chunks.modifyHead (next ++ ·)).modifyHead (front ++ ·) =
      chunks.modifyHead ((front ++ next) ++ ·) := by
  cases chunks <;> simp

theorem split_append (mode : Mode) (escaped : Bool) {stretch : Text} (noDollar : '$' ∉ stretch)
    (text : Text) :
    split mode escaped (stretch ++ text) =
      (split (mode.behind stretch) (Text.escapedBehind escaped stretch) text).modifyHead
        (stretch ++ ·) := by
  induction stretch generalizing mode escaped with
  | nil =>
      have same : mode.behind [] = mode := Mode.behind_of_oneLine List.not_mem_nil mode
      cases chunks : split mode escaped text <;> simp [same, Text.escapedBehind, chunks]
  | cons c stretch ih =>
      rw [List.mem_cons, not_or] at noDollar
      have plain : ¬ (c = '$' ∧ escaped = false) := fun dollar => noDollar.1 dollar.1.symm
      rw [List.cons_append, split_cons_of_plain mode plain, ih _ _ noDollar.2, behind_cons,
        modifyHead_append]
      rfl

theorem split_prose_append {prose : Text} (noDollar : '$' ∉ prose)
    (unescaped : prose.getLast? ≠ some '\\') (text : Text) :
    split .prose false (prose ++ text) = (split .prose false text).modifyHead (prose ++ ·) := by
  rw [split_append _ _ noDollar, Mode.behind_prose, Text.escapedBehind_eq_false unescaped]

theorem split_prose_formula {formula : Text} (nonempty : formula ≠ []) (oneLine : '\n' ∉ formula)
    (noDollar : '$' ∉ formula) (unescaped : formula.getLast? ≠ some '\\') (text : Text) :
    split .prose false ('$' :: (formula ++ '$' :: text)) =
      (split .prose false text).modifyHead ((['$'] ++ formula ++ ['$']) ++ ·) := by
  have apart : ∀ next, formula ++ '$' :: text ≠ '$' :: next := by
    intro next same
    cases formula with
    | nil => exact nonempty rfl
    | cons c formula =>
        rw [List.cons_append, List.cons.injEq] at same
        exact noDollar (same.1 ▸ List.mem_cons_self)
  rw [split_prose_single apart, split_append _ _ noDollar, Mode.behind_of_oneLine oneLine,
    Text.escapedBehind_eq_false unescaped, split_inline_dollar, modifyHead_append,
    modifyHead_append]

theorem split_prose_block {block : Text} (noDollar : '$' ∉ block)
    (unescaped : block.getLast? ≠ some '\\') (text : Text) :
    split .prose false ('$' :: '$' :: (block ++ '$' :: '$' :: text)) =
      [] :: block :: split .prose false text := by
  rw [split_prose_double, split_append _ _ noDollar, Mode.behind_block,
    Text.escapedBehind_eq_false unescaped, split_block_double, List.modifyHead_cons,
    List.append_nil]

/-- A chunk that holds no dollars and escapes no marker behind it, also when blank characters at
its end go. -/
structure IsInert (chunk : Text) : Prop where
  /-- No dollar stands in the chunk. -/
  no_dollar : '$' ∉ chunk
  /-- The last visible character is no backslash. -/
  no_backslash : Text.lastVisible chunk ≠ some '\\'

theorem IsInert.escapedBehind {chunk : Text} (inert : IsInert chunk) :
    Text.escapedBehind false chunk = false := by
  refine Text.escapedBehind_eq_false fun last => inert.no_backslash ?_
  exact Text.lastVisible_eq_of_getLast? (by decide) last

theorem isInert_nil : IsInert [] :=
  ⟨by simp, by simp [Text.lastVisible]⟩

theorem IsInert.append {left right : Text} (front : IsInert left) (behind : IsInert right) :
    IsInert (left ++ right) := by
  constructor
  · simp [front.no_dollar, behind.no_dollar]
  · rw [Text.lastVisible_append]
    cases last : Text.lastVisible right with
    | none => exact front.no_backslash
    | some c =>
        rw [Option.some_or, ← last]
        exact behind.no_backslash

/-- Inert chunks are found again when they are joined. -/
theorem split_join {mode : Mode} (outside : mode ≠ .inline) {chunks : List Text}
    (nonempty : chunks ≠ []) (inert : ∀ chunk ∈ chunks, IsInert chunk) :
    split mode false (join chunks) = chunks := by
  induction chunks generalizing mode with
  | nil => exact absurd rfl nonempty
  | cons chunk chunks ih =>
      rw [List.forall_mem_cons] at inert
      obtain ⟨here, inert⟩ := inert
      have whole := split_append mode false here.no_dollar
      rw [Mode.behind_of_ne_inline outside, here.escapedBehind] at whole
      cases chunks with
      | nil =>
          have alone := whole []
          simpa [split] using alone
      | cons next chunks =>
          have more := List.cons_ne_nil next chunks
          rw [join_cons _ more, whole]
          cases mode with
          | prose => simp [split_prose_double, ih (by decide : Mode.block ≠ .inline) more inert]
          | inline => exact absurd rfl outside
          | block => simp [split_block_double, ih (by decide : Mode.prose ≠ .inline) more inert]

theorem chunks_join {chunks : List Text} (nonempty : chunks ≠ [])
    (inert : ∀ chunk ∈ chunks, IsInert chunk) : Marker.chunks (join chunks) = chunks := by
  rw [chunks_eq_split, split_join (by decide) nonempty inert]

/-- The markers of joined inert chunks are the places at which they are joined. -/
theorem offsets_join {chunks : List Text} (nonempty : chunks ≠ [])
    (inert : ∀ chunk ∈ chunks, IsInert chunk) : offsets (join chunks) = offsetsOf 0 chunks := by
  rw [offsets_eq_offsetsOf, chunks_join nonempty inert]

end Stretch

end Marker
end DollarMath
