import DollarMath.Proofs.Markup.Layout
import DollarMath.Proofs.Markup.Script
import Mathlib.Algebra.Ring.Parity

/-!
# Chunks at a seam

A text that is cut in two is read by reading its first part and going on, in the mode in which that
part was left, with the second: the chunks of the two parts are glued together at the seam.  The
number of chunks tells whether the first part was left in a block; it stays the same when script
characters are escaped and blank characters go where a line ends behind them.  Where the first part
was left outside of blocks, a line break behind the seam lets the reader start afresh, and the
blocks on both sides are tightened apart.
-/

namespace DollarMath
namespace Marker

section Glue

/-- The chunks of two texts behind one another: the last chunk of the first runs on into the first
chunk of the second. -/
def glue : List Text → List Text → List Text
  | [], right => right
  | [chunk], right => right.modifyHead (chunk ++ ·)
  | chunk :: next :: left, right => chunk :: glue (next :: left) right

theorem glue_cons (chunk : Text) {left : List Text} (nonempty : left ≠ []) (right : List Text) :
    glue (chunk :: left) right = chunk :: glue left right := by
  cases left with
  | nil => exact absurd rfl nonempty
  | cons next left => rfl

theorem glue_modifyHead (front : Text) {left : List Text} (nonempty : left ≠ [])
    (right : List Text) :
    glue (left.modifyHead (front ++ ·)) right = (glue left right).modifyHead (front ++ ·) := by
  match left with
  | [] => exact absurd rfl nonempty
  | [chunk] => exact (modifyHead_append front chunk right).symm
  | _ :: _ :: _ => rfl

theorem glue_ne_nil {left right : List Text} (nonempty : right ≠ []) : glue left right ≠ [] := by
  match left with
  | [] => exact nonempty
  | [_] =>
      cases right with
      | nil => exact absurd rfl nonempty
      | cons _ _ => simp [glue]
  | _ :: _ :: _ => exact List.cons_ne_nil _ _

theorem glue_empty {left : List Text} (nonempty : left ≠ []) : glue left [[]] = left := by
  induction left with
  | nil => exact absurd rfl nonempty
  | cons chunk left ih =>
      cases left with
      | nil => simp [glue]
      | cons next left => rw [glue, ih (List.cons_ne_nil next left)]

theorem join_glue {left right : List Text} (nonemptyLeft : left ≠ []) (nonempty : right ≠ []) :
    join (glue left right) = join left ++ join right := by
  induction left with
  | nil => exact absurd rfl nonemptyLeft
  | cons chunk left ih =>
      cases left with
      | nil => rw [glue, join_modifyHead _ nonempty, join_singleton]
      | cons next left =>
          have more := List.cons_ne_nil next left
          rw [glue_cons chunk more, join_cons _ (glue_ne_nil nonempty), join_cons _ more, ih more]
          simp

end Glue

section Split

theorem chunks_ne_nil (text : Text) : chunks text ≠ [] := by
  rw [chunks_eq_split]
  exact split_ne_nil _ _ _

theorem split_cons_of_ne (mode : Mode) (escaped : Bool) {c : Char} (noDollar : c ≠ '$')
    (text : Text) :
    split mode escaped (c :: text) =
      (split (mode.behind [c]) (c == '\\') text).modifyHead ([c] ++ ·) :=
  split_cons_of_plain mode (fun dollar => noDollar dollar.1) text

theorem head?_append_cons {c : Char} (noDollar : c ≠ '$') {left right : Text} :
    (left ++ c :: right).head? = some '$' → left.head? = some '$' := by
  cases left with
  | nil => exact fun same => absurd (Option.some.inj same) noDollar
  | cons d left => exact id

/-- Behind the first part of a text the reader goes on in some mode; it is in a block when the
markers up to there say so. -/
theorem exists_split_append (mode : Mode) (escaped : Bool) (left : Text) :
    ∃ last : Mode,
      (last = .block ↔ (mode = .block ↔ Odd (split mode escaped left).length)) ∧
      ∀ (c : Char) (right : Text), c ≠ '$' →
        split mode escaped (left ++ c :: right) =
          glue (split mode escaped left) (split last false (c :: right)) := by
  induction mode, escaped, left using split_induction with
  | nil mode escaped =>
      refine ⟨mode, by simp [split], fun c right noDollar => ?_⟩
      rw [List.nil_append, split_cons_of_ne mode escaped noDollar,
        split_cons_of_ne mode false noDollar, split, glue, modifyHead_append, List.nil_append]
  | opening text ih =>
      obtain ⟨last, parity, seam⟩ := ih
      refine ⟨last, ?_, fun c right noDollar => ?_⟩
      · rw [parity, split_prose_double, List.length_cons, Nat.odd_add_one]
        simp
      · rw [List.cons_append, List.cons_append, split_prose_double, split_prose_double,
          seam c right noDollar, glue_cons _ (split_ne_nil _ _ _)]
  | closing text ih =>
      obtain ⟨last, parity, seam⟩ := ih
      refine ⟨last, ?_, fun c right noDollar => ?_⟩
      · rw [parity, split_block_double, List.length_cons, Nat.odd_add_one]
        simp
      · rw [List.cons_append, List.cons_append, split_block_double, split_block_double,
          seam c right noDollar, glue_cons _ (split_ne_nil _ _ _)]
  | dollar mode later text stays step ih =>
      obtain ⟨last, parity, seam⟩ := ih
      refine ⟨last, ?_, fun c right noDollar => ?_⟩
      · rw [step text id, List.length_modifyHead, parity, stays]
      · rw [List.cons_append, step _ (head?_append_cons noDollar), seam c right noDollar,
          step text id, glue_modifyHead _ (split_ne_nil _ _ _)]
  | plain mode escaped d text plain ih =>
      obtain ⟨last, parity, seam⟩ := ih
      refine ⟨last, ?_, fun c right noDollar => ?_⟩
      · rw [split_cons_of_plain _ plain, List.length_modifyHead, parity, Mode.behind_eq_block_iff]
      · rw [List.cons_append, split_cons_of_plain _ plain, split_cons_of_plain _ plain,
          seam c right noDollar, glue_modifyHead _ (split_ne_nil _ _ _)]

/-- Behind whole blocks a line break lets the reader start afresh. -/
theorem chunks_append_break {left : Text} (whole : Odd (chunks left).length) (right : Text) :
    chunks (left ++ '\n' :: right) =
      glue (chunks left) ((chunks right).modifyHead (['\n'] ++ ·)) := by
  simp only [chunks_eq_split] at whole ⊢
  obtain ⟨last, parity, seam⟩ := exists_split_append .prose false left
  have outside : last ≠ .block := by
    rw [Ne, parity]
    simp [whole]
  have afresh : last.behind ['\n'] = .prose := by
    cases last with
    | prose => rfl
    | inline => rfl
    | block => exact absurd rfl outside
  rw [seam '\n' right (by decide), split_cons_of_ne last false (by decide), afresh]
  rfl

theorem chunks_append_of_isBlankText {lead : Text} (blank : Text.isBlankText lead) (text : Text) :
    chunks (lead ++ text) = (chunks text).modifyHead (lead ++ ·) := by
  have noDollar : '$' ∉ lead := Text.not_mem_of_isBlankText blank (by decide)
  have unescaped : lead.getLast? ≠ some '\\' := fun last =>
    Text.not_mem_of_isBlankText blank (by decide) (List.mem_of_getLast? last)
  simp only [chunks_eq_split]
  exact split_prose_append noDollar unescaped text

/-- What has no dollars runs on from the last chunk. -/
theorem chunks_append_of_noDollar (left : Text) {right : Text} (noDollar : '$' ∉ right) :
    chunks (left ++ right) = glue (chunks left) [right] := by
  have alone : ∀ mode, split mode false right = [right] := by
    intro mode
    have stretch := split_append mode false noDollar []
    simpa [split] using stretch
  simp only [chunks_eq_split]
  cases right with
  | nil => rw [List.append_nil, glue_empty (split_ne_nil _ _ _)]
  | cons c right =>
      obtain ⟨last, _, seam⟩ := exists_split_append .prose false left
      rw [seam c right fun same => noDollar (same ▸ List.mem_cons_self), alone]

theorem offsetsOf_add (start distance : Nat) (chunks : List Text) :
    offsetsOf (start + distance) chunks = (offsetsOf start chunks).map (· + distance) := by
  induction chunks generalizing start with
  | nil => rfl
  | cons chunk chunks ih =>
      by_cases more : chunks = []
      · subst more
        rfl
      · have first : start + distance + chunk.length = start + chunk.length + distance := by omega
        have later : start + chunk.length + distance + 2 = start + chunk.length + 2 + distance := by
          omega
        rw [offsetsOf_cons _ _ more, offsetsOf_cons _ _ more, List.map_cons, ← ih, first, later]

theorem offsetsOf_glue (start : Nat) {left right : List Text} (nonemptyLeft : left ≠ [])
    (nonempty : right ≠ []) :
    offsetsOf start (glue left right) =
      offsetsOf start left ++ offsetsOf (start + (join left).length) right := by
  induction left generalizing start with
  | nil => exact absurd rfl nonemptyLeft
  | cons first left ih =>
      by_cases more : left = []
      · subst more
        rw [glue, offsetsOf_modifyHead, join_singleton]
        rfl
      · have place : start + (join (first :: left)).length =
            start + first.length + 2 + (join left).length := by
          rw [join_cons _ more]
          simp only [List.length_append, List.length_cons]
          omega
        rw [glue_cons first more, offsetsOf_cons _ _ (glue_ne_nil nonempty),
          offsetsOf_cons _ _ more, ih _ more, place, List.cons_append]

theorem offsets_cons_of_isBlank {c : Char} (blank : Text.isBlank c) (text : Text) :
    offsets (c :: text) = (offsets text).map (· + 1) := by
  have lead : Text.isBlankText [c] := by simpa [Text.isBlankText] using blank
  have front := chunks_append_of_isBlankText lead text
  rw [List.singleton_append] at front
  rw [offsets_eq_offsetsOf, front, offsetsOf_modifyHead, offsetsOf_add, offsets_eq_offsetsOf]
  rfl

theorem offsets_append_of_noDollar (left : Text) {right : Text} (noDollar : '$' ∉ right) :
    offsets (left ++ right) = offsets left := by
  rw [offsets_eq_offsetsOf, chunks_append_of_noDollar left noDollar,
    offsetsOf_glue 0 (chunks_ne_nil left) (List.cons_ne_nil _ _), offsets_eq_offsetsOf]
  exact List.append_nil _

end Split

section Count

theorem forall₂_modifyHead {related : Text → Text → Prop} {left right : List Text}
    {f g : Text → Text} (same : List.Forall₂ related left right)
    (step : ∀ {text text'}, related text text' → related (f text) (g text')) :
    List.Forall₂ related (left.modifyHead f) (right.modifyHead g) := by
  cases same with
  | nil => exact .nil
  | cons here later => exact .cons (step here) later

/-- Edits of texts in which unescaped dollars stay where they are. -/
structure KeepsDollars (related : Text → Text → Prop) : Prop where
  /-- Nothing comes of nothing. -/
  nil_iff (after : Text) : related [] after ↔ after = []
  /-- A dollar stays in front of the edited rest. -/
  dollar_iff (before after : Text) :
    related ('$' :: before) after ↔ ∃ rest, after = '$' :: rest ∧ related before rest
  /-- No dollar comes to the front. -/
  head?_eq_dollar {before after : Text} :
    related before after → after.head? = some '$' → before.head? = some '$'

/-- The edited text has its markers at the same places among the chunks, which are edited one by
one, when this is so where the reader passes a character that is no dollar to it. -/
theorem KeepsDollars.forall₂_split {related : Text → Text → Prop} (keeps : KeepsDollars related)
    (passed : ∀ {mode : Mode} {escaped : Bool} {c : Char} {before after : Text},
      ¬ (c = '$' ∧ escaped = false) → related (c :: before) after →
      (∀ {rest : Text}, related before rest →
        List.Forall₂ related (split (mode.behind [c]) (c == '\\') before)
          (split (mode.behind [c]) (c == '\\') rest)) →
      List.Forall₂ related (split mode escaped (c :: before)) (split mode escaped after))
    {before after : Text} (edited : related before after) (mode : Mode) (escaped : Bool) :
    List.Forall₂ related (split mode escaped before) (split mode escaped after) := by
  have nothing : related [] [] := (keeps.nil_iff []).mpr rfl
  induction mode, escaped, before using split_induction generalizing after with
  | nil mode escaped =>
      obtain rfl := (keeps.nil_iff after).mp edited
      exact .cons nothing .nil
  | opening text ih =>
      obtain ⟨_, rfl, first⟩ := (keeps.dollar_iff _ _).mp edited
      obtain ⟨_, rfl, later⟩ := (keeps.dollar_iff _ _).mp first
      exact .cons nothing (ih later)
  | closing text ih =>
      obtain ⟨_, rfl, first⟩ := (keeps.dollar_iff _ _).mp edited
      obtain ⟨_, rfl, later⟩ := (keeps.dollar_iff _ _).mp first
      exact .cons nothing (ih later)
  | dollar mode later text _ step ih =>
      obtain ⟨_, rfl, behind⟩ := (keeps.dollar_iff _ _).mp edited
      rw [step text id, step _ (keeps.head?_eq_dollar behind)]
      exact forall₂_modifyHead (ih behind) fun same => (keeps.dollar_iff _ _).mpr ⟨_, rfl, same⟩
  | plain mode escaped c text plain ih => exact passed plain edited ih

/-- A text and an edited one in which the markers stay: blank characters go where a line ends
behind them, and characters of a kind that has no dollars get a backslash. -/
inductive KeepsMarkers (escapable : Char → Bool) : Text → Text → Prop where
  /-- Nothing is left of nothing. -/
  | nil : KeepsMarkers escapable [] []
  /-- A character stays. -/
  | keep (c : Char) {before after : Text} :
      KeepsMarkers escapable before after → KeepsMarkers escapable (c :: before) (c :: after)
  /-- A blank character goes. -/
  | drop {c : Char} {before after : Text} (blank : Text.isBlank c)
      (ends : Layout.atLineEnd after) :
      KeepsMarkers escapable before after → KeepsMarkers escapable (c :: before) after
  /-- A character is escaped. -/
  | escape {c : Char} {before after : Text} (noDollar : c ≠ '$') (kind : escapable c) :
      KeepsMarkers escapable before after →
        KeepsMarkers escapable (c :: before) ('\\' :: c :: after)

namespace KeepsMarkers

variable {escapable : Char → Bool} {before after : Text}

theorem of_thinsLineEnds (thins : Layout.ThinsLineEnds before after) :
    KeepsMarkers (fun _ => false) before after := by
  induction thins with
  | nil => exact .nil
  | keep c _ ih => exact .keep c ih
  | drop blank ends _ ih => exact .drop blank ends ih

theorem escapeFrom (escaped : Bool) (text : Text) :
    KeepsMarkers Script.isScript text (Script.escapeFrom escaped text) := by
  induction text generalizing escaped with
  | nil => exact .nil
  | cons c text ih =>
      rw [Script.escapeFrom]
      split
      · rename_i bare
        simp only [Bool.and_eq_true] at bare
        have noDollar : c ≠ '$' := Script.ne_of_isScript bare.1.1 (by decide)
        exact .escape noDollar bare.1.1 (ih (c == '\\'))
      · exact .keep c (ih (c == '\\'))

theorem keepsDollars : KeepsDollars (KeepsMarkers escapable) where
  nil_iff after := by
    constructor
    · rintro ⟨⟩
      rfl
    · rintro rfl
      exact .nil
  dollar_iff before after := by
    constructor
    · intro keeps
      cases keeps with
      | keep _ keeps => exact ⟨_, rfl, keeps⟩
      | drop blank _ _ => exact absurd blank (by decide)
      | escape noDollar _ _ => exact absurd rfl noDollar
    · rintro ⟨rest, rfl, keeps⟩
      exact .keep '$' keeps
  head?_eq_dollar keeps first := by
    cases keeps with
    | nil => exact first
    | keep _ _ => exact first
    | drop _ ends _ =>
        obtain ⟨rest, rfl⟩ := List.head?_eq_some_iff.mp first
        exact absurd (beq_iff_eq.mp ends) (by decide)
    | escape _ _ _ => exact absurd (Option.some.inj first) (by decide)

theorem filter_eq (none : ∀ c, escapable c = false) (keeps : KeepsMarkers escapable before after) :
    after.filter (!Text.isBlank ·) = before.filter (!Text.isBlank ·) := by
  induction keeps with
  | nil => rfl
  | keep c _ ih => rw [List.filter_cons, List.filter_cons, ih]
  | drop blank _ _ ih => rw [ih, List.filter_cons_of_neg (by simp [blank])]
  | escape _ kind _ _ => simp [none] at kind

theorem split_of_atLineEnd {after : Text} (ends : Layout.atLineEnd after) (mode : Mode)
    (escaped escaped' : Bool) (c : Char) :
    split mode escaped after = split (mode.behind [c]) escaped' after := by
  cases after with
  | nil => rfl
  | cons d after =>
      obtain rfl := beq_iff_eq.mp ends
      have same : (mode.behind [c]).behind ['\n'] = mode.behind ['\n'] := by
        cases mode <;> simp only [Mode.behind] <;> grind
      rw [split_cons_of_ne mode escaped (by decide),
        split_cons_of_ne (mode.behind [c]) escaped' (by decide), same]

theorem atLineEnd_head_split {after chunk : Text} (ends : Layout.atLineEnd after) (mode : Mode)
    (escaped : Bool) (first : (split mode escaped after).head? = some chunk) :
    Layout.atLineEnd chunk := by
  cases after with
  | nil =>
      obtain rfl := Option.some.inj first
      rfl
  | cons d after =>
      obtain rfl := beq_iff_eq.mp ends
      rw [split_cons_of_ne mode escaped (by decide), List.head?_modifyHead,
        Option.map_eq_some_iff] at first
      obtain ⟨_, _, rfl⟩ := first
      rfl

/-- A blank character goes from the front of a chunk in which a line ends behind it. -/
theorem forall₂_drop {c : Char} (blank : Text.isBlank c) {left right : List Text}
    (ends : ∀ chunk, right.head? = some chunk → Layout.atLineEnd chunk)
    (same : List.Forall₂ (KeepsMarkers escapable) left right) :
    List.Forall₂ (KeepsMarkers escapable) (left.modifyHead ([c] ++ ·)) right := by
  cases same with
  | nil => exact .nil
  | cons here later => exact .cons (.drop blank (ends _ rfl) here) later

/-- The edited text has its markers at the same places among the chunks, which are edited one by
one. -/
theorem forall₂_split (keeps : KeepsMarkers escapable before after) (mode : Mode)
    (escaped : Bool) :
    List.Forall₂ (KeepsMarkers escapable) (split mode escaped before)
      (split mode escaped after) := by
  refine keepsDollars.forall₂_split ?_ keeps mode escaped
  intro mode escaped c before after plain keeps ih
  rw [split_cons_of_plain mode plain]
  cases keeps with
  | keep _ keeps =>
      rw [split_cons_of_plain mode plain]
      exact forall₂_modifyHead (ih keeps) (.keep c)
  | drop blank ends keeps =>
      rw [split_of_atLineEnd ends mode escaped (c == '\\') c]
      exact forall₂_drop blank (fun _ => atLineEnd_head_split ends _ _) (ih keeps)
  | escape noDollar kind keeps =>
      have oneLine : '\n' ∉ ['\\'] := by decide
      rw [split_cons_of_ne mode escaped (by decide), split_cons_of_ne _ _ noDollar,
        modifyHead_append, Mode.behind_of_oneLine oneLine]
      exact forall₂_modifyHead (ih keeps) (.escape noDollar kind)

theorem forall₂_chunks (keeps : KeepsMarkers escapable before after) :
    List.Forall₂ (KeepsMarkers escapable) (chunks before) (chunks after) := by
  rw [chunks_eq_split, chunks_eq_split]
  exact keeps.forall₂_split .prose false

theorem length_chunks (keeps : KeepsMarkers escapable before after) :
    (chunks after).length = (chunks before).length :=
  keeps.forall₂_chunks.length_eq.symm

end KeepsMarkers

theorem length_chunks_eq (text : Text) : (chunks text).length = (offsets text).length + 1 := by
  have general : ∀ (chunks : List Text) (start : Nat), chunks ≠ [] →
      chunks.length = (offsetsOf start chunks).length + 1 := by
    intro chunks
    induction chunks with
    | nil => exact fun _ nonempty => absurd rfl nonempty
    | cons chunk chunks ih =>
        intro start _
        by_cases more : chunks = []
        · subst more
          rfl
        · rw [offsetsOf_cons _ _ more, List.length_cons, ih _ more, List.length_cons]
  rw [offsets_eq_offsetsOf, general _ 0 (chunks_ne_nil text)]

/-- Behind a line break that stands outside of blocks a text has the markers that it has by itself,
in whatever formula, dollar or backslash the line before it ends. -/
theorem offsets_append_break {left : Text} (whole : Even (offsets left).length) (right : Text) :
    offsets (left ++ '\n' :: right) =
      offsets left ++ (offsets right).map (· + (left.length + 1)) := by
  have closed : Odd (chunks left).length := by
    rw [length_chunks_eq]
    exact whole.add_one
  have nonempty : (chunks right).modifyHead (['\n'] ++ ·) ≠ [] := by
    simpa using chunks_ne_nil right
  have place : 0 + (join (chunks left)).length + ['\n'].length = 0 + (left.length + 1) := by
    rw [join_chunks, Nat.add_assoc]
    rfl
  rw [offsets_eq_offsetsOf, chunks_append_break closed,
    offsetsOf_glue 0 (chunks_ne_nil left) nonempty, offsetsOf_modifyHead, place, offsetsOf_add,
    ← offsets_eq_offsetsOf, ← offsets_eq_offsetsOf]

/-- The line before the break ends in a formula that stays open and in a backslash. -/
theorem offsets_append_break_of_open_formula :
    Even (offsets "$$a$$ $b\\").length ∧
      offsets (Text.ofString "$$a$$ $b\\" ++ '\n' :: "$$c$$") = [0, 3, 10, 13] := by
  have whole : Even (offsets "$$a$$ $b\\").length := by decide +kernel
  exact ⟨whole, (offsets_append_break whole _).trans (by decide +kernel)⟩

end Count

end Marker

namespace Layout

section Tighten

/-- The blocks on both sides of a seam outside of blocks are tightened apart. -/
theorem tightenBlocks_glue {left right : List Text} (whole : Odd left.length)
    (nonempty : right ≠ []) :
    tightenBlocks (Marker.glue left right) =
      Marker.glue (tightenBlocks left) (tightenBlocks right) := by
  fun_induction tightenBlocks left with
  | case1 => simp at whole
  | case2 outside => exact tightenBlocks_modifyHead outside right
  | case3 outside unclosed => exact absurd whole (by decide : ¬ Odd 2)
  | case4 outside inside chunks more ih =>
      have later : Odd chunks.length := by
        rw [List.length_cons, List.length_cons, Nat.odd_add_one, Nat.odd_add_one, not_not] at whole
        exact whole
      have rest : chunks ≠ [] := by simpa using more
      rw [Marker.glue_cons _ (List.cons_ne_nil _ _), Marker.glue_cons _ rest,
        tightenBlocks_block _ _ (Marker.glue_ne_nil nonempty), ih later,
        Marker.glue_cons _ (List.cons_ne_nil _ _), Marker.glue_cons _ (tightenBlocks_ne_nil rest)]

theorem dropLeadingBreaks_append {chunk : Text} (visible : ¬ Text.isBlankText chunk)
    (rest : Text) : dropLeadingBreaks (chunk ++ rest) = dropLeadingBreaks chunk ++ rest := by
  obtain ⟨c, member, noBlank⟩ : ∃ c ∈ chunk, ¬ Text.isBlank c := by
    simpa [Text.isBlankText_iff] using visible
  have stops : chunk.dropWhile Text.isBlank ≠ [] := fun empty =>
    noBlank (List.dropWhile_eq_nil_iff.mp empty c member)
  rw [dropLeadingBreaks, Text.takeWhile_append_of_stops stops,
    Text.dropWhile_append_of_stops stops, ← List.append_assoc, dropLeadingBreaks]

theorem head?_join_tightenBlocks (chunks : List Text) :
    (Marker.join (tightenBlocks chunks)).head? = (Marker.join chunks).head? := by
  match chunks with
  | [] => rfl
  | [_] => rfl
  | outside :: inside :: chunks =>
      have same : ∀ chunks : List Text, chunks ≠ [] →
          (Marker.join (outside :: chunks)).head? = some (outside.head?.getD '$') := by
        intro chunks nonempty
        rw [Marker.join_cons _ nonempty, List.head?_append]
        cases outside <;> rfl
      rw [same _ (List.cons_ne_nil inside chunks)]
      cases chunks with
      | nil => exact same _ (List.cons_ne_nil _ _)
      | cons next chunks => exact same _ (List.cons_ne_nil _ _)

theorem getLast?_join_cons (chunk : Text) {chunks : List Text} (nonempty : chunks ≠ []) :
    (Marker.join (chunk :: chunks)).getLast? = some ((Marker.join chunks).getLast?.getD '$') := by
  rw [Marker.join_cons _ nonempty, List.getLast?_append]
  simp [List.getLast?_cons]

theorem getLast?_join_tightenBlocks {chunks : List Text}
    (visible : ∀ c, (Marker.join chunks).getLast? = some c → Text.isBlank c = false) :
    (Marker.join (tightenBlocks chunks)).getLast? = (Marker.join chunks).getLast? := by
  fun_induction tightenBlocks chunks with
  | case1 => rfl
  | case2 outside => rfl
  | case3 outside unclosed =>
      rw [getLast?_join_cons _ (List.cons_ne_nil _ _), Marker.join_singleton] at visible
      rw [getLast?_join_cons _ (List.cons_ne_nil _ _), getLast?_join_cons _ (List.cons_ne_nil _ _),
        Marker.join_singleton, Marker.join_singleton]
      rcases dropLeadingBreaks_cases unclosed with ⟨_, same⟩ | ⟨run, rest, _, _, rfl, dropped⟩
      · rw [same]
      · cases rest with
        | nil =>
            simp only [List.getLast?_concat, Option.getD_some] at visible
            exact absurd (visible '\n' rfl) (by decide)
        | cons c rest =>
            rw [dropped, List.getLast?_append, List.getLast?_cons_cons]
            simp [List.getLast?_cons]
  | case4 outside inside chunks more ih =>
      have nonempty : chunks ≠ [] := by simpa using more
      have inner : inside :: chunks ≠ [] := List.cons_ne_nil _ _
      rw [getLast?_join_cons _ inner, getLast?_join_cons _ nonempty] at visible ⊢
      rw [getLast?_join_cons _ (List.cons_ne_nil _ _),
        getLast?_join_cons _ (tightenBlocks_ne_nil nonempty), ih]
      intro c last
      exact visible c (by simp [last])

theorem exists_tightenBlocks_glue {left : List Text} (nonempty : left ≠ [])
    (visible : ∀ c, (Marker.join left).getLast? = some c → Text.isBlank c = false)
    {trail : Text} (blank : Text.isBlankText trail) :
    ∃ trail', Text.isBlankText trail' ∧
      tightenBlocks (Marker.glue left [trail]) = Marker.glue (tightenBlocks left) [trail'] := by
  fun_induction tightenBlocks left with
  | case1 => exact absurd rfl nonempty
  | case2 outside => exact ⟨trail, blank, rfl⟩
  | case3 outside unclosed =>
      rw [getLast?_join_cons _ (List.cons_ne_nil _ _), Marker.join_singleton] at visible
      by_cases empty : unclosed = []
      · subst empty
        refine ⟨dropLeadingBreaks trail, ?_, rfl⟩
        exact Text.isBlankText_of_subset (dropLeadingBreaks_isSuffix trail).subset blank
      · refine ⟨trail, blank, ?_⟩
        have someVisible : ¬ Text.isBlankText unclosed := by
          intro blank
          have last := List.getLast?_eq_some_getLast empty
          have ends := visible _ (by rw [last])
          simp [Text.isBlankText_iff.mp blank _ (List.getLast_mem empty)] at ends
        change [outside, dropLeadingBreaks (unclosed ++ trail)] = _
        rw [dropLeadingBreaks_append someVisible]
        rfl
  | case4 outside inside chunks more ih =>
      have nonempty : chunks ≠ [] := by simpa using more
      rw [getLast?_join_cons _ (List.cons_ne_nil _ _), getLast?_join_cons _ nonempty] at visible
      obtain ⟨trail', blank', seam⟩ := ih nonempty fun c last => visible c (by simp [last])
      have tight := tightenBlocks_ne_nil nonempty
      refine ⟨trail', blank', ?_⟩
      rw [Marker.glue_cons _ (List.cons_ne_nil _ _), Marker.glue_cons _ nonempty,
        tightenBlocks_block _ _ (Marker.glue_ne_nil (List.cons_ne_nil _ _)), seam,
        Marker.glue_cons _ (List.cons_ne_nil _ _), Marker.glue_cons _ tight]

end Tighten

section Normalize

variable {left right text : Text}

theorem isFlush_normalize (flush : Text.IsFlush text) : Text.IsFlush (normalize text) := by
  have settled := partsAtVisible_settle.isFlush flush
  have visible : ∀ c, (Marker.join (Marker.chunks (settle text))).getLast? = some c →
      Text.isBlank c = false := by
    rw [Marker.join_chunks]
    exact fun c => settled.isBlank_getLast
  have first := head?_join_tightenBlocks (Marker.chunks (settle text))
  have last := getLast?_join_tightenBlocks visible
  rw [Marker.join_chunks] at first last
  rw [normalize_eq]
  refine .of_ends ?_ ?_ ?_
  · intro empty
    rw [empty] at first
    exact settled.ne_nil (List.head?_eq_none_iff.mp first.symm)
  · rw [first]
    exact fun c => settled.isBlank_head
  · rw [last]
    exact fun c => settled.isBlank_getLast

/-- Blank characters around a flush text change nothing in it. -/
theorem exists_normalize_append (flush : Text.IsFlush text) {lead trail : Text}
    (blankLead : Text.isBlankText lead) (blankTrail : Text.isBlankText trail) :
    ∃ lead' trail', Text.isBlankText lead' ∧ Text.isBlankText trail' ∧
      normalize (lead ++ (text ++ trail)) = lead' ++ (normalize text ++ trail') := by
  have settled := partsAtVisible_settle.isFlush flush
  obtain ⟨lead', less, whole⟩ := partsAtVisible_settle.exists_left lead flush
  have blankLead' := Text.isBlankText_of_subset less.subset blankLead
  have blankTrail' : Text.isBlankText (settle trail) :=
    Text.isBlankText_of_subset (thinsLineEnds_settle trail).thins.sublist.subset blankTrail
  have visible : ∀ c, (Marker.join (Marker.chunks (settle text))).getLast? = some c →
      Text.isBlank c = false := by
    rw [Marker.join_chunks]
    exact fun c => settled.isBlank_getLast
  obtain ⟨trail', blank, tight⟩ :=
    exists_tightenBlocks_glue (Marker.chunks_ne_nil (settle text)) visible blankTrail'
  refine ⟨lead', trail', blankLead', blank, ?_⟩
  have seam := Marker.chunks_append_of_noDollar (settle text)
    (Text.not_mem_of_isBlankText blankTrail' (by decide))
  have tightNonempty := tightenBlocks_ne_nil (Marker.chunks_ne_nil (settle text))
  rw [normalize_eq, whole, partsAtVisible_settle.append flush,
    Marker.chunks_append_of_isBlankText blankLead', tightenBlocks_modifyHead, seam, tight,
    Marker.join_modifyHead _ (Marker.glue_ne_nil (List.cons_ne_nil _ _)),
    Marker.join_glue tightNonempty (List.cons_ne_nil _ _), Marker.join_singleton, normalize_eq]

/-- Behind whole blocks and an empty line a text is normalised by itself. -/
theorem normalize_append_break (flushLeft : Text.IsFlush left) (flushRight : Text.IsFlush right)
    (whole : Odd (Marker.chunks (settle left)).length) :
    normalize (left ++ '\n' :: '\n' :: right) =
      normalize left ++ '\n' :: '\n' :: normalize right := by
  obtain ⟨c, rest, rfl, visible⟩ := flushRight.first
  have front := Marker.chunks_append_of_isBlankText (by decide : Text.isBlankText ['\n'])
    (settle (c :: rest))
  rw [List.singleton_append] at front
  have tightLeft := tightenBlocks_ne_nil (Marker.chunks_ne_nil (settle left))
  have tightRight := tightenBlocks_ne_nil (Marker.chunks_ne_nil (settle (c :: rest)))
  rw [normalize_eq, partsAtVisible_settle.append flushLeft, settle_break visible,
    Marker.chunks_append_break whole, front, Marker.modifyHead_append, tightenBlocks_glue whole,
    tightenBlocks_modifyHead, Marker.join_glue tightLeft, Marker.join_modifyHead _ tightRight]
  · rfl
  · simpa using tightRight
  · simpa using Marker.chunks_ne_nil (settle (c :: rest))

end Normalize

end Layout
end DollarMath
