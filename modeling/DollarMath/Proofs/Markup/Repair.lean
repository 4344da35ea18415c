import DollarMath.Proofs.Markup.Brace
import DollarMath.Proofs.Markup.Seam

/-!
# Repairs and block markers

Two repairs change single characters of a text: bare script characters get a backslash, and doubled
braces become one pair.  The reader of the markers sees neither of them, in whatever mode it is: the
backslash stands before a character that is no dollar, and of the braces an equal one stays, so each
dollar keeps the characters on which its meaning depends.  Script characters are escaped in a chunk
as in a text of its own.  A doubled pair of braces may have whole blocks inside it, and the chunks
are thinned each by its share.
-/

namespace DollarMath
namespace Script

/-- A character as it is written before `text`, behind a backslash where it is a bare script
character. -/
def spelled (escaped : Bool) (c : Char) (text : Text) : Text :=
  if isScript c && !escaped && !hasOperand text then ['\\', c] else [c]

theorem escapeFrom_cons (escaped : Bool) (c : Char) (text : Text) :
    escapeFrom escaped (c :: text) =
      spelled escaped c text ++ escapeFrom (c == '\\') text := by
  rw [escapeFrom, spelled]
  split <;> rfl

/-- Chunks with their bare script characters escaped; `escaped` tells whether a backslash stands
directly before the first one. -/
def escapeChunks (escaped : Bool) : List Text → List Text
  | [] => []
  | first :: chunks => escapeFrom escaped first :: chunks.map escapeBare

theorem escapeChunks_false (chunks : List Text) :
    escapeChunks false chunks = chunks.map escapeBare := by
  cases chunks <;> rfl

end Script

namespace Marker

section Escape

theorem hasOperand_of_split {mode : Mode} {escaped : Bool} {text first : Text}
    {chunks : List Text} (cut : split mode escaped text = first :: chunks) :
    Script.hasOperand first = Script.hasOperand text := by
  have whole := join_split mode escaped text
  rw [cut] at whole
  rw [← whole]
  cases chunks with
  | nil => rw [join_singleton]
  | cons next chunks =>
      rw [join_cons _ (List.cons_ne_nil next chunks)]
      cases first <;> rfl

theorem escapeChunks_modifyHead_split (mode : Mode) (escaped escaped' : Bool) (c : Char)
    (text : Text) :
    Script.escapeChunks escaped' ((split mode escaped text).modifyHead ([c] ++ ·)) =
      (Script.escapeChunks (c == '\\') (split mode escaped text)).modifyHead
        (Script.spelled escaped' c text ++ ·) := by
  obtain ⟨first, chunks, cut⟩ := List.exists_cons_of_ne_nil (split_ne_nil mode escaped text)
  have same : Script.spelled escaped' c first = Script.spelled escaped' c text := by
    rw [Script.spelled, hasOperand_of_split cut, Script.spelled]
  rw [cut, List.modifyHead_cons, List.singleton_append, Script.escapeChunks,
    Script.escapeFrom_cons, same, Script.escapeChunks, List.modifyHead_cons]

/-- A character goes into the first chunk with the backslash before it. -/
theorem split_spelled_append (mode : Mode) {escaped : Bool} {c : Char}
    (plain : ¬ (c = '$' ∧ escaped = false)) (escaped' : Bool) (text rest : Text) :
    split mode escaped (Script.spelled escaped' c text ++ rest) =
      (split (mode.behind [c]) (c == '\\') rest).modifyHead
        (Script.spelled escaped' c text ++ ·) := by
  rw [Script.spelled]
  split
  · rename_i bare
    simp only [Bool.and_eq_true] at bare
    have noDollar : c ≠ '$' := Script.ne_of_isScript bare.1.1 (by decide)
    have oneLine : '\n' ∉ ['\\'] := by decide
    rw [List.cons_append, split_cons_of_ne mode escaped (by decide), List.singleton_append,
      split_cons_of_ne _ _ noDollar, modifyHead_append, Mode.behind_of_oneLine oneLine]
    rfl
  · exact split_cons_of_plain mode plain rest

theorem escapeFrom_dollar (escaped : Bool) (text : Text) :
    Script.escapeFrom escaped ('$' :: text) = '$' :: Script.escapeBare text := rfl

theorem head?_escapeBare {text : Text} (dollar : (Script.escapeBare text).head? = some '$') :
    text.head? = some '$' := by
  cases text with
  | nil => exact dollar
  | cons c text =>
      rw [Script.escapeBare, Script.escapeFrom_cons, Script.spelled] at dollar
      split at dollar
      · exact absurd dollar (by simp)
      · exact dollar

/-- The chunks of an escaped text are the escaped chunks of the text, whatever stands before it. -/
theorem split_escapeFrom (mode : Mode) (escaped escaped' : Bool) (text : Text) :
    split mode escaped (Script.escapeFrom escaped' text) =
      Script.escapeChunks escaped' (split mode escaped text) := by
  induction mode, escaped, text using split_induction generalizing escaped' with
  | nil mode escaped => rfl
  | opening text ih =>
      rw [escapeFrom_dollar, Script.escapeBare, escapeFrom_dollar, split_prose_double,
        split_prose_double, Script.escapeBare, ih, Script.escapeChunks_false]
      rfl
  | closing text ih =>
      rw [escapeFrom_dollar, Script.escapeBare, escapeFrom_dollar, split_block_double,
        split_block_double, Script.escapeBare, ih, Script.escapeChunks_false]
      rfl
  | dollar mode later text _ step ih =>
      rw [escapeFrom_dollar, step _ head?_escapeBare, step text id,
        escapeChunks_modifyHead_split, Script.escapeBare, ih]
      rfl
  | plain mode escaped c text plain ih =>
      rw [Script.escapeFrom_cons, split_spelled_append mode plain, ih,
        split_cons_of_plain mode plain, escapeChunks_modifyHead_split]

theorem chunks_escapeBare (text : Text) :
    chunks (Script.escapeBare text) = (chunks text).map Script.escapeBare := by
  rw [chunks_eq_split, chunks_eq_split, Script.escapeBare, split_escapeFrom,
    Script.escapeChunks_false]

end Escape

section Brace

variable {before after : Text}

theorem keepsDollars_thins : KeepsDollars (Text.Thins fun _ => false) where
  nil_iff after := ⟨fun thins => thins.eq_nil, by rintro rfl; exact .nil⟩
  dollar_iff before after := by
    constructor
    · exact fun thins => thins.front rfl (by decide)
    · rintro ⟨rest, rfl, thins⟩
      exact .keep '$' thins
  head?_eq_dollar thins first := by
    cases thins with
    | nil => exact first
    | keep _ _ => exact first
    | drop extra _ => simp at extra
    | merge _ _ => exact first

theorem forall₂_merge {c : Char} (brace : Text.isBrace c) {left right : List Text}
    (same : List.Forall₂ (Text.Thins fun _ => false) left (right.modifyHead ([c] ++ ·))) :
    List.Forall₂ (Text.Thins fun _ => false) (left.modifyHead ([c] ++ ·))
      (right.modifyHead ([c] ++ ·)) := by
  cases right with
  | nil =>
      rw [List.modifyHead_nil] at same ⊢
      rw [List.forall₂_nil_right_iff.mp same]
      exact .nil
  | cons chunk chunks =>
      rw [List.modifyHead_cons] at same ⊢
      obtain ⟨first, later, here, rest, rfl⟩ := List.forall₂_cons_right_iff.mp same
      exact .cons (.merge brace here) rest

/-- When equal braces become one, the markers stay at their places among the chunks, which are
thinned one by one. -/
theorem forall₂_split_of_thins (thins : Text.Thins (fun _ => false) before after) (mode : Mode)
    (escaped : Bool) :
    List.Forall₂ (Text.Thins fun _ => false) (split mode escaped before)
      (split mode escaped after) := by
  refine keepsDollars_thins.forall₂_split ?_ thins mode escaped
  intro mode escaped c before after plain thins ih
  rw [split_cons_of_plain mode plain]
  cases thins with
  | keep _ behind =>
      rw [split_cons_of_plain mode plain]
      exact forall₂_modifyHead (ih behind) (.keep c)
  | drop extra _ => simp at extra
  | @merge _ _ rest brace behind =>
      have noDollar : c ≠ '$' := Text.ne_of_isBrace brace (by decide)
      have oneLine : '\n' ∉ [c] :=
        mt List.mem_singleton.mp (Text.ne_of_isBrace brace (by decide)).symm
      have same := ih behind
      rw [Mode.behind_of_oneLine oneLine, split_cons_of_ne mode _ noDollar,
        Mode.behind_of_oneLine oneLine] at same
      rw [split_cons_of_ne mode _ noDollar, Mode.behind_of_oneLine oneLine]
      exact forall₂_merge brace same

theorem length_chunks_dropDoubled (text : Text) :
    (chunks (Brace.dropDoubled text)).length = (chunks text).length := by
  rw [chunks_eq_split, chunks_eq_split]
  exact (forall₂_split_of_thins (Brace.thins_dropDoubled text) .prose false).length_eq.symm

end Brace

/-- Escaping script characters and merging doubled braces leave a text with as many block markers as
it had, and script characters are escaped in each chunk by itself. -/
theorem repairs_keep_blocks (text : Text) :
    (offsets (Script.escapeBare text)).length = (offsets text).length ∧
      (offsets (Brace.dropDoubled text)).length = (offsets text).length ∧
      chunks (Script.escapeBare text) = (chunks text).map Script.escapeBare := by
  have escaped := congrArg List.length (chunks_escapeBare text)
  have merged := length_chunks_dropDoubled text
  rw [List.length_map, length_chunks_eq, length_chunks_eq] at escaped
  rw [length_chunks_eq, length_chunks_eq] at merged
  exact ⟨Nat.succ.inj escaped, Nat.succ.inj merged, chunks_escapeBare text⟩

end Marker
end DollarMath
