import DollarMath.Proofs.Markup.BlankRun
import DollarMath.Proofs.Markup.Chunk
import DollarMath.Proofs.Text.Blank
import Mathlib.Data.List.DropRight
import Mathlib.Data.List.Forall2

/-!
# Normalised layout

Pulling the content of a block up to its markers drops a blank prefix and a blank suffix of a
chunk.  So chunks are tightened one by one into parts of themselves, nothing is found in the
result that was not there before, and a text whose lines and runs are in order is left alone
exactly when its chunks are tight already.
-/

namespace DollarMath
namespace Layout

section Breaks

/-- No line break stands among the blank characters that the text starts with. -/
def StartsTight (text : Text) : Prop :=
  '\n' ∉ text.takeWhile Text.isBlank

/-- No line break stands among the blank characters that the text ends with. -/
def EndsTight (text : Text) : Prop :=
  '\n' ∉ text.rtakeWhile Text.isBlank

theorem startsTight_reverse_iff {text : Text} : StartsTight text.reverse ↔ EndsTight text := by
  rw [StartsTight, EndsTight, List.rtakeWhile, List.mem_reverse]

/-- Either no line break leads the text, or the blank characters up to the last such break go. -/
theorem dropLeadingBreaks_cases (text : Text) :
    (StartsTight text ∧ dropLeadingBreaks text = text) ∨
      ∃ run rest, Text.isBlankText run ∧ StartsTight rest ∧ text = run ++ '\n' :: rest ∧
        dropLeadingBreaks text = rest := by
  have whole := List.takeWhile_append_dropWhile (p := Text.isBlank) (l := text)
  by_cases tight : StartsTight text
  · left
    refine ⟨tight, ?_⟩
    have kept : behindBreaks (text.takeWhile Text.isBlank) = text.takeWhile Text.isBlank := by
      rw [behindBreaks, beforeBreaks, List.takeWhile_eq_self_iff.mpr, List.reverse_reverse]
      intro c member
      rw [bne_iff_ne]
      rintro rfl
      exact tight (List.mem_reverse.mp member)
    rw [dropLeadingBreaks, kept, whole]
  · right
    have someBreak : '\n' ∈ (text.takeWhile Text.isBlank).reverse := by
      simpa [StartsTight] using tight
    obtain ⟨last, run, reversed, noLast⟩ := List.eq_append_cons_of_mem someBreak
    have parts : text.takeWhile Text.isBlank = run.reverse ++ '\n' :: last.reverse := by
      rw [← List.reverse_reverse (text.takeWhile Text.isBlank), reversed]
      simp
    have blank : Text.isBlankText (run.reverse ++ '\n' :: last.reverse) := by
      rw [← parts]
      exact Text.isBlankText_takeWhile text
    simp only [Text.isBlankText, List.all_append, List.all_cons, Bool.and_eq_true] at blank
    have noLast' : '\n' ∉ last.reverse := by simpa using noLast
    refine ⟨run.reverse, last.reverse ++ text.dropWhile Text.isBlank, blank.1, ?_, ?_, ?_⟩
    · have rest : (text.dropWhile Text.isBlank).takeWhile Text.isBlank = [] := by
        rw [List.takeWhile_eq_nil_iff]
        intro positive
        have visible := List.head_dropWhile_not Text.isBlank (List.ne_nil_of_length_pos positive)
        rw [List.head_eq_getElem] at visible
        simp [visible]
      rw [StartsTight, List.takeWhile_append_of_pos (Text.isBlankText_iff.mp blank.2.2), rest,
        List.append_nil]
      exact noLast'
    · rw [← List.cons_append, ← List.append_assoc, ← parts, whole]
    · rw [dropLeadingBreaks, parts, behindBreaks_append noLast']

theorem dropTrailingBreaks_cases (text : Text) :
    (EndsTight text ∧ dropTrailingBreaks text = text) ∨
      ∃ rest run, Text.isBlankText run ∧ EndsTight rest ∧ text = rest ++ '\n' :: run ∧
        dropTrailingBreaks text = rest := by
  rw [dropTrailingBreaks, ← startsTight_reverse_iff]
  rcases dropLeadingBreaks_cases text.reverse with
    ⟨tight, same⟩ | ⟨run, rest, blank, tight, parts, dropped⟩
  · exact .inl ⟨tight, by rw [same, List.reverse_reverse]⟩
  · right
    refine ⟨rest.reverse, run.reverse, ?_, ?_, ?_, ?_⟩
    · rwa [Text.isBlankText, List.all_reverse]
    · rwa [← startsTight_reverse_iff, List.reverse_reverse]
    · rw [← List.reverse_reverse text, parts]
      simp
    · rw [dropped]

theorem dropLeadingBreaks_isSuffix (text : Text) : dropLeadingBreaks text <:+ text := by
  rcases dropLeadingBreaks_cases text with ⟨_, same⟩ | ⟨run, rest, _, _, parts, dropped⟩
  · rw [same]
  · rw [dropped]
    exact ⟨run ++ ['\n'], by simp [parts]⟩

theorem dropTrailingBreaks_isPrefix (text : Text) : dropTrailingBreaks text <+: text := by
  rcases dropTrailingBreaks_cases text with ⟨_, same⟩ | ⟨rest, run, _, _, parts, dropped⟩
  · rw [same]
  · rw [dropped]
    exact ⟨'\n' :: run, parts.symm⟩

theorem thins_dropLeadingBreaks (text : Text) :
    Text.Thins Text.isBlank text (dropLeadingBreaks text) := by
  rcases dropLeadingBreaks_cases text with ⟨_, same⟩ | ⟨run, rest, blank, _, parts, dropped⟩
  · rw [same]
    exact .refl _ text
  · rw [dropped, parts]
    exact (Text.Thins.of_isBlankText blank).append (.drop (by decide) (.refl _ rest))

theorem thins_dropTrailingBreaks (text : Text) :
    Text.Thins Text.isBlank text (dropTrailingBreaks text) := by
  rcases dropTrailingBreaks_cases text with ⟨_, same⟩ | ⟨rest, run, blank, _, parts, dropped⟩
  · rw [same]
    exact .refl _ text
  · rw [dropped, parts]
    have behind := Text.Thins.of_isBlankText blank
    have kept := (Text.Thins.refl _ rest).append (.drop (by decide : Text.isBlank '\n') behind)
    rwa [List.append_nil] at kept

section Filter

variable {kept : Char → Bool} (noBlank : ∀ c, Text.isBlank c → kept c = false)

include noBlank

theorem filter_dropLeadingBreaks (text : Text) :
    (dropLeadingBreaks text).filter kept = text.filter kept := by
  rcases dropLeadingBreaks_cases text with ⟨_, same⟩ | ⟨run, rest, blank, _, parts, dropped⟩
  · rw [same]
  · have noBreak : ¬ kept '\n' := by simp [noBlank '\n' (by decide)]
    rw [dropped, parts, List.filter_append, Text.filter_of_isBlankText noBlank blank,
      List.filter_cons_of_neg noBreak, List.nil_append]

theorem filter_dropTrailingBreaks (text : Text) :
    (dropTrailingBreaks text).filter kept = text.filter kept := by
  rw [dropTrailingBreaks, List.filter_reverse, filter_dropLeadingBreaks noBlank,
    List.filter_reverse, List.reverse_reverse]

end Filter

theorem not_startsTight_append {run : Text} (blank : Text.isBlankText run) (rest : Text) :
    ¬ StartsTight (run ++ '\n' :: rest) := by
  intro tight
  rw [StartsTight, List.takeWhile_append_of_pos (Text.isBlankText_iff.mp blank),
    List.takeWhile_cons_of_pos (by decide)] at tight
  simp at tight

theorem not_endsTight_append {run : Text} (blank : Text.isBlankText run) (rest : Text) :
    ¬ EndsTight (rest ++ '\n' :: run) := by
  have blank' : Text.isBlankText run.reverse := by rwa [Text.isBlankText, List.all_reverse]
  rw [← startsTight_reverse_iff]
  simpa using not_startsTight_append blank' rest.reverse

theorem dropLeadingBreaks_eq_self_iff {text : Text} :
    dropLeadingBreaks text = text ↔ StartsTight text := by
  rcases dropLeadingBreaks_cases text with ⟨tight, same⟩ | ⟨run, rest, blank, _, parts, dropped⟩
  · exact iff_of_true same tight
  · refine iff_of_false ?_ ?_
    · rw [dropped, parts]
      intro same
      have lengths := congrArg List.length same
      simp only [List.length_append, List.length_cons] at lengths
      omega
    · rw [parts]
      exact not_startsTight_append blank rest

theorem dropTrailingBreaks_eq_self_iff {text : Text} :
    dropTrailingBreaks text = text ↔ EndsTight text := by
  rw [dropTrailingBreaks, List.reverse_eq_iff, dropLeadingBreaks_eq_self_iff,
    startsTight_reverse_iff]

theorem dropBreaks_eq_self_iff {text : Text} :
    dropTrailingBreaks (dropLeadingBreaks text) = text ↔ StartsTight text ∧ EndsTight text := by
  constructor
  · intro fixed
    have shorter := (dropTrailingBreaks_isPrefix (dropLeadingBreaks text)).length_le
    rw [fixed] at shorter
    have lead := (dropLeadingBreaks_isSuffix text).eq_of_length_le shorter
    rw [lead] at fixed
    exact ⟨dropLeadingBreaks_eq_self_iff.mp lead, dropTrailingBreaks_eq_self_iff.mp fixed⟩
  · rintro ⟨starts, ends⟩
    rw [dropLeadingBreaks_eq_self_iff.mpr starts, dropTrailingBreaks_eq_self_iff.mpr ends]

end Breaks

section Join

theorem thins_join {spare : Char → Bool} {before after : List Text}
    (thinned : List.Forall₂ (Text.Thins spare) before after) :
    Text.Thins spare (Marker.join before) (Marker.join after) := by
  induction thinned with
  | nil => exact .nil
  | @cons chunk chunk' before after here thinned ih =>
      cases thinned with
      | nil => simpa using here
      | cons next later =>
          rw [Marker.join_cons _ (List.cons_ne_nil _ _), Marker.join_cons _ (List.cons_ne_nil _ _)]
          exact here.append (.keep '$' (.keep '$' ih))

/-- A text thinned of blank characters and braces is thinned chunk by chunk. -/
theorem exists_chunks_of_thins {chunks : List Text} (nonempty : chunks ≠ []) {after : Text}
    (thins : Text.Thins Text.isBlank (Marker.join chunks) after) :
    ∃ chunks', after = Marker.join chunks' ∧
      List.Forall₂ (Text.Thins Text.isBlank) chunks chunks' := by
  have noBlank : Text.isBlank '$' = false := by decide
  have noBrace : Text.isBrace '$' = false := by decide
  induction chunks generalizing after with
  | nil => exact absurd rfl nonempty
  | cons chunk chunks ih =>
      cases chunks with
      | nil =>
          rw [Marker.join_singleton] at thins
          exact ⟨[after], by simp, .cons thins .nil⟩
      | cons next chunks =>
          have more := List.cons_ne_nil next chunks
          rw [Marker.join_cons _ more] at thins
          obtain ⟨chunk', rest, rfl, here, thins⟩ := thins.split noBlank noBrace
          obtain ⟨rest', rfl, behind⟩ := thins.front noBlank noBrace
          obtain ⟨chunks', rfl, later⟩ := ih more behind
          cases later with
          | cons step later =>
              refine ⟨chunk' :: _, ?_, .cons here (.cons step later)⟩
              rw [Marker.join_cons _ (List.cons_ne_nil _ _)]

theorem filter_join {kept : Char → Bool} {before after : List Text}
    (same : List.Forall₂ (fun before after => after.filter kept = before.filter kept)
      before after) :
    (Marker.join after).filter kept = (Marker.join before).filter kept := by
  induction same with
  | nil => rfl
  | @cons chunk chunk' before after here same ih =>
      cases same with
      | nil => simpa using here
      | cons next later =>
          rw [Marker.join_cons _ (List.cons_ne_nil _ _), Marker.join_cons _ (List.cons_ne_nil _ _),
            List.filter_append, List.filter_append, here]
          simp only [List.filter_cons, ih]

theorem infix_join {chunks : List Text} {chunk : Text} (member : chunk ∈ chunks) :
    chunk <:+: Marker.join chunks := by
  induction chunks with
  | nil => simp at member
  | cons next chunks ih =>
      rcases List.mem_cons.mp member with rfl | member
      · cases chunks with
        | nil => simp
        | cons later chunks =>
            rw [Marker.join_cons _ (List.cons_ne_nil _ _)]
            exact (List.prefix_append _ _).isInfix
      · rw [Marker.join_cons _ (List.ne_nil_of_mem member)]
        exact (ih member).trans ⟨next ++ ['$', '$'], [], by simp⟩

theorem exists_infix_of_infix_join {word : Text} (noDollar : '$' ∉ word) (nonempty : word ≠ [])
    {chunks : List Text} (inside : word <:+: Marker.join chunks) :
    ∃ chunk ∈ chunks, word <:+: chunk := by
  induction chunks with
  | nil => exact absurd (List.infix_nil.mp inside) nonempty
  | cons chunk chunks ih =>
      cases chunks with
      | nil => exact ⟨chunk, by simp, by simpa using inside⟩
      | cons next chunks =>
          rw [Marker.join_cons _ (List.cons_ne_nil _ _),
            Text.infix_append_cons_iff_of_not_mem noDollar nonempty, ← List.nil_append ('$' :: _),
            Text.infix_append_cons_iff_of_not_mem noDollar nonempty] at inside
          rcases inside with here | none | later
          · exact ⟨chunk, by simp, here⟩
          · exact absurd (List.infix_nil.mp none) nonempty
          · obtain ⟨found, member, within⟩ := ih later
            exact ⟨found, List.mem_cons_of_mem _ member, within⟩

theorem length_join_le {before after : List Text}
    (shorter : List.Forall₂ List.Sublist after before) :
    (Marker.join after).length ≤ (Marker.join before).length := by
  induction shorter with
  | nil => exact Nat.le_refl _
  | cons here later ih =>
      have part := here.length_le
      cases later with
      | nil => simpa using part
      | cons next later =>
          rw [Marker.join_cons _ (List.cons_ne_nil _ _), Marker.join_cons _ (List.cons_ne_nil _ _)]
          simp only [List.length_append, List.length_cons]
          omega

/-- Joined shorter chunks are only the same text when no chunk is shorter. -/
theorem eq_of_join_eq {before after : List Text} (shorter : List.Forall₂ List.Sublist after before)
    (same : Marker.join after = Marker.join before) : after = before := by
  induction shorter with
  | nil => rfl
  | @cons chunk' chunk after before here later ih =>
      have part := here.length_le
      have parts := length_join_le later
      cases later with
      | nil => simpa using same
      | cons next later =>
          rw [Marker.join_cons _ (List.cons_ne_nil _ _), Marker.join_cons _ (List.cons_ne_nil _ _)]
            at same
          have lengths := congrArg List.length same
          simp only [List.length_append, List.length_cons] at lengths
          have equal : chunk' = chunk := here.eq_of_length (by omega)
          subst equal
          rw [List.append_cancel_left_eq, List.cons.injEq, List.cons.injEq] at same
          rw [ih same.2.2]

end Join

section Tighten

/-- The chunks at odd places start with no line break, and those with a marker behind them end
with none. -/
def IsTight (chunks : List Text) : Prop :=
  ∀ place chunk, chunks[2 * place + 1]? = some chunk →
    StartsTight chunk ∧ (2 * place + 2 < chunks.length → EndsTight chunk)

/-- What holds between a chunk and what tightening makes of it, inside of a block or outside,
holds between all chunks. -/
theorem tightenBlocks_rel {related : Text → Text → Prop} (outside : ∀ chunk, related chunk chunk)
    (unclosed : ∀ chunk, related chunk (dropLeadingBreaks chunk))
    (inside : ∀ chunk, related chunk (dropTrailingBreaks (dropLeadingBreaks chunk)))
    (chunks : List Text) : List.Forall₂ related chunks (tightenBlocks chunks) := by
  fun_induction tightenBlocks chunks with
  | case1 => exact .nil
  | case2 chunk => exact .cons (outside chunk) .nil
  | case3 chunk last => exact .cons (outside chunk) (.cons (unclosed last) .nil)
  | case4 chunk block chunks _ ih => exact .cons (outside chunk) (.cons (inside block) ih)

/-- Tightening takes blank characters from the two ends of chunks. -/
theorem tightenBlocks_forall₂ (chunks : List Text) :
    List.Forall₂ (fun before after => after <:+: before ∧ Text.Thins Text.isBlank before after)
      chunks (tightenBlocks chunks) := by
  refine tightenBlocks_rel ?_ ?_ ?_ chunks
  · exact fun chunk => ⟨List.infix_rfl, .refl _ chunk⟩
  · exact fun chunk => ⟨(dropLeadingBreaks_isSuffix chunk).isInfix, thins_dropLeadingBreaks chunk⟩
  · intro chunk
    have lead := dropLeadingBreaks_isSuffix chunk
    have trail := dropTrailingBreaks_isPrefix (dropLeadingBreaks chunk)
    exact ⟨trail.isInfix.trans lead.isInfix,
      (thins_dropLeadingBreaks chunk).trans (thins_dropTrailingBreaks _)⟩

theorem tightenBlocks_ne_nil {chunks : List Text} (nonempty : chunks ≠ []) :
    tightenBlocks chunks ≠ [] := by
  fun_cases tightenBlocks chunks <;> simp_all

theorem tightenBlocks_block (outside inside : Text) {chunks : List Text} (nonempty : chunks ≠ []) :
    tightenBlocks (outside :: inside :: chunks) =
      outside :: dropTrailingBreaks (dropLeadingBreaks inside) :: tightenBlocks chunks := by
  cases chunks with
  | nil => exact absurd rfl nonempty
  | cons next chunks => rfl

theorem tightenBlocks_modifyHead (front : Text) (chunks : List Text) :
    tightenBlocks (chunks.modifyHead (front ++ ·)) =
      (tightenBlocks chunks).modifyHead (front ++ ·) := by
  match chunks with
  | [] => rfl
  | [_] => rfl
  | [_, _] => rfl
  | _ :: _ :: _ :: _ => rfl

theorem tightenBlocks_eq_self_iff {chunks : List Text} :
    tightenBlocks chunks = chunks ↔ IsTight chunks := by
  fun_induction tightenBlocks chunks with
  | case1 => simp [IsTight]
  | case2 outside => simp [IsTight]
  | case3 outside unclosed =>
      simp only [List.cons.injEq, true_and, and_true, dropLeadingBreaks_eq_self_iff, IsTight]
      constructor
      · intro starts place chunk found
        cases place with
        | zero =>
            obtain rfl := Option.some.inj found
            exact ⟨starts, by simp⟩
        | succ place => simp at found
      · intro tight
        exact (tight 0 unclosed rfl).1
  | case4 outside inside chunks more ih =>
      have nonempty : 0 < chunks.length := List.length_pos_iff.mpr more
      simp only [List.cons.injEq, true_and, dropBreaks_eq_self_iff, ih]
      constructor
      · rintro ⟨here, later⟩ place chunk found
        cases place with
        | zero =>
            obtain rfl := Option.some.inj found
            exact ⟨here.1, fun _ => here.2⟩
        | succ place =>
            obtain ⟨starts, ends⟩ := later place chunk found
            refine ⟨starts, fun marker => ends ?_⟩
            simp only [List.length_cons] at marker
            omega
      · intro tight
        obtain ⟨starts, ends⟩ := tight 0 inside rfl
        refine ⟨⟨starts, ends (by simp; omega)⟩, ?_⟩
        intro place chunk found
        obtain ⟨starts, ends⟩ := tight (place + 1) chunk found
        refine ⟨starts, fun marker => ends ?_⟩
        simp only [List.length_cons]
        omega

theorem exists_of_mem_tightenBlocks {chunks : List Text} {chunk : Text}
    (member : chunk ∈ tightenBlocks chunks) : ∃ before ∈ chunks, chunk <:+: before := by
  have parts := tightenBlocks_forall₂ chunks
  generalize tightenBlocks chunks = tight at parts member
  induction parts with
  | nil => simp at member
  | cons part _ ih =>
      rcases List.mem_cons.mp member with rfl | member
      · exact ⟨_, List.mem_cons_self, part.1⟩
      · obtain ⟨before, whole, inside⟩ := ih member
        exact ⟨before, List.mem_cons_of_mem _ whole, inside⟩

theorem infix_of_infix_tighten {word : Text} (noDollar : '$' ∉ word) {chunks : List Text}
    (inside : word <:+: Marker.join (tightenBlocks chunks)) : word <:+: Marker.join chunks := by
  by_cases empty : word = []
  · rw [empty]
    exact List.nil_infix
  · obtain ⟨chunk, member, within⟩ := exists_infix_of_infix_join noDollar empty inside
    obtain ⟨before, whole, part⟩ := exists_of_mem_tightenBlocks member
    exact (within.trans part).trans (infix_join whole)

end Tighten

section Normalize

theorem normalize_eq (text : Text) :
    normalize text = Marker.join (tightenBlocks (Marker.chunks (settle text))) := rfl

theorem thins_normalize (text : Text) : Text.Thins Text.isBlank text (normalize text) := by
  have runs := (thinsLineEnds_settle text).thins
  have blocks := thins_join
    ((tightenBlocks_forall₂ (Marker.chunks (settle text))).imp fun _ _ part => part.2)
  rw [Marker.join_chunks, ← normalize_eq] at blocks
  exact runs.trans blocks

theorem filter_normalize {kept : Char → Bool} (noBlank : ∀ c, Text.isBlank c → kept c = false)
    (text : Text) : (normalize text).filter kept = text.filter kept := by
  have lines := thinsLineEnds_settle text
  have blocks : List.Forall₂ (fun before after => after.filter kept = before.filter kept)
      (Marker.chunks (settle text)) (tightenBlocks (Marker.chunks (settle text))) := by
    refine tightenBlocks_rel ?_ ?_ ?_ _
    · exact fun _ => rfl
    · exact filter_dropLeadingBreaks noBlank
    · exact fun chunk => (filter_dropTrailingBreaks noBlank _).trans
        (filter_dropLeadingBreaks noBlank chunk)
  rw [normalize_eq, filter_join blocks, Marker.join_chunks, lines.filter_eq noBlank]

theorem infix_of_infix_normalize {word : Text} (noDollar : '$' ∉ word) {text : Text}
    (inside : word <:+: normalize text) : word <:+: closeRuns (trimLineEnds text) := by
  have found := infix_of_infix_tighten noDollar inside
  rwa [Marker.join_chunks] at found

/-- A word of visible characters is not new in a normalised text. -/
theorem infix_of_visible_infix_normalize {word : Text} (noDollar : '$' ∉ word)
    (visible : ∀ c ∈ word, Text.isBlank c = false) {text : Text}
    (inside : word <:+: normalize text) : word <:+: text :=
  infix_of_infix_settle visible (infix_of_infix_normalize noDollar inside)

theorem not_pair_infix_normalize {c : Char} (space : Text.isSpaceOrTab c) (text : Text) :
    ¬ [c, '\n'] <:+: normalize text := by
  have blank := Text.isBlank_of_isSpaceOrTab space
  have noDollar : '$' ∉ [c, '\n'] :=
    Text.not_mem_of_isBlankText (isBlankText_pair blank) (by decide)
  have noBreak : c ≠ '\n' := by
    rintro rfl
    exact absurd space (by decide)
  intro inside
  have before := pair_infix_closeRuns blank noBreak (infix_of_infix_normalize noDollar inside)
  exact (trimLineEnds_eq_self_iff.mp (trimLineEnds_trimLineEnds text)).1 c space before

theorem shortRuns_normalize (text : Text) : ShortRuns (normalize text) := by
  intro run inside blank
  have noDollar : '$' ∉ run := Text.not_mem_of_isBlankText blank (by decide)
  exact shortRuns_closeRuns _ run (infix_of_infix_normalize noDollar inside) blank

/-- A text without loose line ends and long runs is left alone exactly when its blocks are
tight. -/
theorem normalize_eq_self_iff {text : Text} (trimmed : trimLineEnds text = text)
    (short : ShortRuns text) : normalize text = text ↔ IsTight (Marker.chunks text) := by
  rw [normalize, trimmed, closeRuns_eq_self_iff.mpr short, ← tightenBlocks_eq_self_iff]
  constructor
  · intro fixed
    refine eq_of_join_eq ?_ (by rw [fixed, Marker.join_chunks])
    exact ((tightenBlocks_forall₂ _).imp fun _ _ part => part.1.sublist).flip
  · intro tight
    rw [tight, Marker.join_chunks]

end Normalize

end Layout
end DollarMath
