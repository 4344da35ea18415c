import DollarMath.Markup.Marker.Scan

/-!
# A reader of single characters

The block markers are those that an automaton hands out which reads every character once.  It
remembers the mode it is in, the character that it has read last and whether the one that it reads
next has been consumed already, as the second dollar of a pair is.  One step of it is compared with
one case of `Marker.scan`, which passes a pair of dollars at once.
-/

namespace DollarMath
namespace Marker

/-- What is remembered between two characters of a text. -/
structure Reader where
  /-- The mode that the next character is read in. -/
  mode : Mode
  /-- The character that was read last. -/
  previous : Option Char
  /-- Whether the next character was consumed together with the last one. -/
  consumed : Bool
  deriving DecidableEq, Repr

namespace Reader

/-- At the start of a text. -/
def start : Reader :=
  ⟨.prose, none, false⟩

/-- Reads the character `c`, which `next` stands behind, and tells whether a marker starts there. -/
def step (reader : Reader) (c : Char) (next : Option Char) : Reader × Bool :=
  if reader.consumed then (⟨reader.mode, some c, false⟩, false)
  else if c = '$' ∧ reader.previous ≠ some '\\' then
    match reader.mode with
    | .prose =>
        if next = some '$' then (⟨.block, some c, true⟩, true)
        else (⟨.inline, some c, false⟩, false)
    | .inline => (⟨.prose, some c, false⟩, false)
    | .block =>
        if next = some '$' then (⟨.prose, some c, true⟩, true)
        else (⟨.block, some c, false⟩, false)
  else if c = '\n' ∧ reader.mode = .inline then (⟨.prose, some c, false⟩, false)
  else (⟨reader.mode, some c, false⟩, false)

/-- The offsets at which markers start in a text whose first character has the offset `offset`. -/
def emit (reader : Reader) (offset : Nat) : Text → List Nat
  | [] => []
  | c :: text =>
      let (later, starts) := reader.step c text.head?
      (if starts then [offset] else []) ++ later.emit (offset + 1) text

section Step

variable {previous : Option Char} {next : Option Char}

theorem step_plain (mode : Mode) {c : Char} (plain : ¬ (c = '$' ∧ previous ≠ some '\\')) :
    step ⟨mode, previous, false⟩ c next = (⟨mode.behind [c], some c, false⟩, false) := by
  rw [step, if_neg Bool.false_ne_true, if_neg plain, Mode.behind]
  simp only [List.mem_singleton, eq_comm (a := '\n'), and_comm (a := mode = .inline)]
  split <;> rfl

variable (unescaped : previous ≠ some '\\')

include unescaped

/-- Outside of formulas and in a block a dollar with another one behind it starts a marker, and
both are consumed. -/
theorem emit_pair {mode : Mode} (outside : mode ≠ .inline) (offset : Nat) (text : Text) :
    emit ⟨mode, previous, false⟩ offset ('$' :: '$' :: text) = offset ::
      emit ⟨if mode = .prose then .block else .prose, some '$', false⟩ (offset + 2) text := by
  have dollar : '$' = '$' ∧ previous ≠ some '\\' := ⟨rfl, unescaped⟩
  cases mode with
  | prose => simp [emit, step, dollar]
  | inline => exact absurd rfl outside
  | block => simp [emit, step, dollar]

theorem emit_single {mode : Mode} (outside : mode ≠ .inline) (offset : Nat) {text : Text}
    (apart : ∀ rest, text ≠ '$' :: rest) :
    emit ⟨mode, previous, false⟩ offset ('$' :: text) =
      emit ⟨if mode = .prose then .inline else .block, some '$', false⟩ (offset + 1) text := by
  have dollar : '$' = '$' ∧ previous ≠ some '\\' := ⟨rfl, unescaped⟩
  have alone : text.head? ≠ some '$' := by
    intro first
    obtain ⟨rest, same⟩ := List.head?_eq_some_iff.mp first
    exact apart rest same
  cases mode with
  | prose => simp [emit, step, dollar, alone]
  | inline => exact absurd rfl outside
  | block => simp [emit, step, dollar, alone]

theorem emit_inline (offset : Nat) (text : Text) :
    emit ⟨.inline, previous, false⟩ offset ('$' :: text) =
      emit ⟨.prose, some '$', false⟩ (offset + 1) text := by
  have dollar : '$' = '$' ∧ previous ≠ some '\\' := ⟨rfl, unescaped⟩
  simp [emit, step, dollar]

end Step

theorem emit_plain (mode : Mode) {previous : Option Char} (offset : Nat) {c : Char}
    (plain : ¬ (c = '$' ∧ previous ≠ some '\\')) (text : Text) :
    emit ⟨mode, previous, false⟩ offset (c :: text) =
      emit ⟨mode.behind [c], some c, false⟩ (offset + 1) text := by
  rw [emit, step_plain mode plain]
  rfl

/-- Passing pairs of dollars at once and reading them one by one finds the same markers. -/
theorem scan_eq_emit (mode : Mode) (escaped : Bool) (offset : Nat) (text : Text)
    {previous : Option Char} (unescaped : escaped = false ↔ previous ≠ some '\\') :
    scan mode escaped offset text = emit ⟨mode, previous, false⟩ offset text := by
  have behind : ∀ c : Char, (c == '\\') = false ↔ some c ≠ some '\\' := by simp
  fun_induction scan mode escaped offset text generalizing previous with
  | case1 => rfl
  | case2 escaped offset c dollar text ih =>
      obtain ⟨rfl, clear⟩ := dollar
      rw [emit_pair (unescaped.mp clear) (by decide), ih (behind '$')]
      rfl
  | case3 escaped offset c dollar text single ih =>
      obtain ⟨rfl, clear⟩ := dollar
      rw [emit_single (unescaped.mp clear) (by decide) _ (fun rest same => single rest same),
        ih (behind '$')]
      rfl
  | case4 escaped offset c dollar text ih =>
      obtain ⟨rfl, clear⟩ := dollar
      rw [emit_inline (unescaped.mp clear), ih (behind '$')]
  | case5 escaped offset c dollar text ih =>
      obtain ⟨rfl, clear⟩ := dollar
      rw [emit_pair (unescaped.mp clear) (by decide), ih (behind '$')]
      rfl
  | case6 escaped offset c dollar text single ih =>
      obtain ⟨rfl, clear⟩ := dollar
      rw [emit_single (unescaped.mp clear) (by decide) _ (fun rest same => single rest same),
        ih (behind '$')]
      rfl
  | case7 mode escaped offset c text plain ih =>
      rw [unescaped] at plain
      rw [emit_plain mode offset plain, ih (behind c)]

end Reader

/-- The markers of a text are what the automaton hands out that reads it from its start, one
character after the other. -/
theorem offsets_eq_emit (text : Text) : offsets text = Reader.start.emit 0 text := by
  rw [offsets, offsetsFrom_eq_scan]
  exact Reader.scan_eq_emit .prose false 0 text (by decide)

/-- Two formulas side by side in a sentence and a displayed one: the third run of dollars closes the
second formula and opens the third. -/
example : Reader.start.emit 0 "$a$$b$$$c$$" = [6, 9] := by decide

end Marker
end DollarMath
