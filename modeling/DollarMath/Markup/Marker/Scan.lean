import DollarMath.Markup.Marker

/-!
# Reading markers character by character

The block markers of a text are also found in one pass that looks at every character and remembers
its mode.  `Marker.offsetsFrom_eq_scan` says that the two ways agree, from every mode.
-/

namespace DollarMath

namespace Mode

theorem behind_of_oneLine {stretch : Text} (oneLine : '\n' ∉ stretch) (mode : Mode) :
    mode.behind stretch = mode :=
  if_neg fun closes => oneLine closes.2

theorem behind_of_ne_inline {mode : Mode} (outside : mode ≠ .inline) (stretch : Text) :
    mode.behind stretch = mode :=
  if_neg fun closes => outside closes.1

@[simp]
theorem behind_prose (stretch : Text) : Mode.prose.behind stretch = .prose :=
  behind_of_ne_inline (by decide) stretch

@[simp]
theorem behind_block (stretch : Text) : Mode.block.behind stretch = .block :=
  behind_of_ne_inline (by decide) stretch

/-- Only dollars lead into a block or out of it. -/
theorem behind_eq_block_iff (mode : Mode) (stretch : Text) :
    mode.behind stretch = .block ↔ mode = .block := by
  rw [behind]
  split
  · rename_i closes
    simp [closes.1]
  · rfl

end Mode

namespace Marker

/-- The offsets of the block markers in a text that is read character by character. -/
def scan (mode : Mode) (escaped : Bool) (offset : Nat) : Text → List Nat
  | [] => []
  | c :: text =>
      if c = '$' ∧ escaped = false then
        match mode, text with
        | .prose, '$' :: text => offset :: scan .block false (offset + 2) text
        | .prose, text => scan .inline false (offset + 1) text
        | .inline, text => scan .prose false (offset + 1) text
        | .block, '$' :: text => offset :: scan .prose false (offset + 2) text
        | .block, text => scan .block false (offset + 1) text
      else scan (mode.behind [c]) (c == '\\') (offset + 1) text

theorem behind_cons (mode : Mode) (c : Char) (stretch : Text) :
    (mode.behind [c]).behind stretch = mode.behind (c :: stretch) := by
  cases mode <;> simp only [Mode.behind, List.mem_cons, List.not_mem_nil] <;> grind

theorem scan_cons_of_plain (mode : Mode) {escaped : Bool} (offset : Nat) {c : Char}
    (plain : ¬ (c = '$' ∧ escaped = false)) (text : Text) :
    scan mode escaped offset (c :: text) =
      scan (mode.behind [c]) (c == '\\') (offset + 1) text := by
  rw [scan.eq_def]
  simp only [if_neg plain]

/-- Up to the first dollars only the mode and the offset change. -/
theorem scan_of_first? {mode : Mode} {escaped : Bool} {offset : Nat} {text : Text}
    {dollars : Dollars} (found : Dollars.first? escaped text = some dollars) :
    scan mode escaped offset text =
      scan (mode.behind dollars.before) false (offset + dollars.before.length)
        (dollars.run ++ dollars.rest) := by
  revert mode offset
  refine Dollars.first?_induction (motive := fun escaped text dollars => ∀ {mode offset},
    scan mode escaped offset text =
      scan (mode.behind dollars.before) false (offset + dollars.before.length)
        (dollars.run ++ dollars.rest)) ?here ?passed found
  case here =>
    intro text mode offset
    rw [Dollars.run_atFront, Dollars.before_atFront, Mode.behind_of_oneLine List.not_mem_nil]
    rfl
  case passed =>
    intro escaped c text dollars plain ih mode offset
    have further : offset + (c :: dollars.before).length = offset + 1 + dollars.before.length := by
      rw [List.length_cons]
      omega
    rw [scan_cons_of_plain mode offset plain, ih, behind_cons, further]
    rfl

theorem scan_of_first?_eq_none {mode : Mode} {escaped : Bool} {offset : Nat} {text : Text}
    (none : Dollars.first? escaped text = none) : scan mode escaped offset text = [] := by
  induction text generalizing mode escaped offset with
  | nil => rw [scan]
  | cons c text ih =>
      rw [Dollars.first?] at none
      split at none
      · simp at none
      · rename_i plain
        rw [scan_cons_of_plain mode offset plain]
        exact ih (by simpa using none)

theorem scan_prose_double (offset : Nat) (text : Text) :
    scan .prose false offset ('$' :: '$' :: text) =
      offset :: scan .block false (offset + 2) text :=
  rfl

theorem scan_prose_single (offset : Nat) {text : Text} (apart : ∀ next, text ≠ '$' :: next) :
    scan .prose false offset ('$' :: text) = scan .inline false (offset + 1) text := by
  simp [scan.eq_def .prose]

theorem scan_inline (offset : Nat) (text : Text) :
    scan .inline false offset ('$' :: text) = scan .prose false (offset + 1) text :=
  rfl

theorem scan_block_double (offset : Nat) (text : Text) :
    scan .block false offset ('$' :: '$' :: text) =
      offset :: scan .prose false (offset + 2) text :=
  rfl

theorem scan_block_single (offset : Nat) {text : Text} (apart : ∀ next, text ≠ '$' :: next) :
    scan .block false offset ('$' :: text) = scan .block false (offset + 1) text := by
  rw [scan.eq_def]
  simp

/-- Jumping from dollar to dollar finds the markers that reading every character finds. -/
theorem offsetsFrom_eq_scan (mode : Mode) (start : Nat) (text : Text) :
    offsetsFrom mode start text = scan mode false start text := by
  fun_induction offsetsFrom mode start text with
  | case1 mode start text found => rw [scan_of_first?_eq_none found]
  | case2 mode start text dollars found offset double here ih =>
      rw [ih, scan_of_first? found, here, Dollars.run, double]
      exact (scan_prose_double offset dollars.rest).symm
  | case3 mode start text dollars found offset single here ih =>
      rw [ih, scan_of_first? found, here, Dollars.run, single]
      exact (scan_prose_single offset (Dollars.rest_ne_of_single found single)).symm
  | case4 mode start text dollars found offset double here ih =>
      rw [ih, scan_of_first? found, here, Dollars.run, double]
      exact (scan_inline offset _).symm
  | case5 mode start text dollars found offset single here ih =>
      rw [ih, scan_of_first? found, here, Dollars.run, single]
      exact (scan_inline offset _).symm
  | case6 mode start text dollars found offset double here ih =>
      rw [ih, scan_of_first? found, here, Dollars.run, double]
      exact (scan_block_double offset dollars.rest).symm
  | case7 mode start text dollars found offset single here ih =>
      rw [ih, scan_of_first? found, here, Dollars.run, single]
      exact (scan_block_single offset (Dollars.rest_ne_of_single found single)).symm

end Marker
end DollarMath
