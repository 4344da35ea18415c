import DollarMath.Proofs.Markup.Bystander

/-!
# Words that display-style commands interrupt

Dropping a command brings what stands before it and what stands behind it together.  So a word can
come out of a text in which it never stood: its letters stood there one after another with commands
between them.  These are the only words that start with a backslash and are new, and the stages
before the commands go pass over their parts.
-/

namespace DollarMath
namespace DisplayStyle

section Drop

@[simp]
theorem dropCommands_nil : dropCommands [] = [] := by
  simp [dropCommands]

theorem read?_eq_none_iff {text : Text} : occurrences.read? text = none ↔ ¬ command <+: text := by
  simp only [occurrences, Option.map_eq_none_iff, Text.after?_eq_none_iff]

theorem dropCommands_cons {c : Char} {text : Text} (absent : ¬ command <+: c :: text) :
    dropCommands (c :: text) = c :: dropCommands text :=
  occurrences.substitute_cons _ (read?_eq_none_iff.mpr absent)

theorem dropCommands_command (text : Text) :
    dropCommands (command ++ text) = dropCommands (text.dropWhile Text.isBlank) := by
  have read : occurrences.read? (command ++ text) =
      some (text.takeWhile Text.isBlank, text.dropWhile Text.isBlank) := by
    simp [occurrences]
  exact occurrences.substitute_of_read? _ read

/-- Texts are built up from the right by letters and by commands with blank characters behind
them. -/
theorem commands_induction {motive : Text → Prop} (nil : motive [])
    (command : ∀ text, motive (text.dropWhile Text.isBlank) → motive (command ++ text))
    (letter : ∀ c text, ¬ DisplayStyle.command <+: c :: text → motive text → motive (c :: text))
    (text : Text) : motive text := by
  fun_induction occurrences.pieces text with
  | case1 => exact nil
  | case2 c text absent ih => exact letter c text (read?_eq_none_iff.mp absent) ih
  | case3 c text blanks rest read ih =>
      simp only [occurrences, Option.map_eq_some_iff, Prod.mk.injEq] at read
      obtain ⟨behind, found, _, rfl⟩ := read
      rw [Text.after?_eq_some_iff.mp found]
      exact command behind ih

theorem not_command_prefix_of_ne {c : Char} (plain : c ≠ '\\') (text : Text) :
    ¬ command <+: c :: text := by
  rw [command_eq, List.cons_prefix_cons]
  exact fun front => plain front.1.symm

/-- No command and no blank characters behind one reach over a backslash. -/
theorem dropCommands_append_backslash (left right : Text) :
    dropCommands (left ++ '\\' :: right) = dropCommands left ++ dropCommands ('\\' :: right) := by
  induction left using commands_induction with
  | nil => simp
  | command left ih =>
      have visible : Text.isBlank '\\' = false := by decide
      rw [List.append_assoc, dropCommands_command, dropCommands_command, ← ih,
        Matrix.dropWhile_append_cons visible]
  | letter c left absent ih =>
      have stays : ¬ command <+: c :: (left ++ '\\' :: right) := fun front =>
        absent (Text.prefix_of_prefix_append_cons (by decide) (List.cons_ne_nil c left) front)
      rw [List.cons_append, dropCommands_cons stays, dropCommands_cons absent, ih,
        List.cons_append]

end Drop

/-- A text that spells a word, with display-style commands before some of the letters, each with
blank characters behind it. -/
inductive Padded : Text → Text → Prop where
  /-- Nothing spells the empty word. -/
  | nil : Padded [] []
  /-- A letter of the word. -/
  | letter (c : Char) {word text : Text} : Padded word text → Padded (c :: word) (c :: text)
  /-- A command before a letter. -/
  | skip (blanks : Text) {c : Char} {word text : Text} (blank : Text.isBlankText blanks) :
      Padded (c :: word) text → Padded (c :: word) (command ++ (blanks ++ text))

namespace Padded

variable {word text : Text}

theorem cons_cases {c : Char} (padded : Padded (c :: word) text) :
    (∃ later, text = c :: later ∧ Padded word later) ∨ ∃ later, text = '\\' :: later := by
  cases padded with
  | letter _ later => exact .inl ⟨_, rfl, later⟩
  | skip _ _ _ => exact .inr ⟨_, rfl⟩

theorem dropWhile_append {c : Char} (padded : Padded (c :: word) text)
    (visible : Text.isBlank c = false) {blanks : Text} (blank : Text.isBlankText blanks)
    (rest : Text) : (blanks ++ (text ++ rest)).dropWhile Text.isBlank = text ++ rest := by
  rw [List.dropWhile_append_of_pos (Text.isBlankText_iff.mp blank)]
  rcases padded.cons_cases with ⟨later, rfl, _⟩ | ⟨later, rfl⟩
  · exact List.dropWhile_cons_of_neg (by simp [visible])
  · exact List.dropWhile_cons_of_neg (by decide)

/-- Dropping the commands of what spells a word leaves the word. -/
theorem dropCommands_append (padded : Padded word text)
    (plain : ∀ c ∈ word, c ≠ '\\' ∧ Text.isBlank c = false) (rest : Text) :
    dropCommands (text ++ rest) = word ++ dropCommands rest := by
  induction padded with
  | nil => rfl
  | letter c _ ih =>
      rw [List.forall_mem_cons] at plain
      rw [List.cons_append, dropCommands_cons (not_command_prefix_of_ne plain.1.1 _), ih plain.2,
        List.cons_append]
  | @skip blanks c _ _ blank later ih =>
      rw [List.append_assoc, List.append_assoc, dropCommands_command,
        later.dropWhile_append (plain c List.mem_cons_self).2 blank, ih plain]

theorem eq_of_prefix (padded : Padded word text) {name rest : Text} (single : '\\' ∉ name)
    (longer : word.length ≤ name.length) (front : name <+: text ++ rest) : text = word := by
  induction padded generalizing name with
  | nil => rfl
  | letter c _ ih =>
      cases name with
      | nil => simp at longer
      | cons d name =>
          have later := (List.cons_prefix_cons.mp front).2
          rw [ih (fun member => single (List.mem_cons_of_mem d member)) (by simpa using longer)
            later]
  | skip _ _ _ _ =>
      have empty := Text.eq_nil_of_prefix_cons single front
      simp [empty] at longer

theorem eq_of_infix (padded : Padded word text) (single : '\\' ∉ word) {letter : Char}
    (inside : ['\\', letter] <:+: text) : letter = 'd' := by
  induction padded with
  | nil => simp at inside
  | letter c _ ih =>
      rw [List.mem_cons, not_or] at single
      rw [List.infix_cons_iff, List.cons_prefix_cons, or_iff_right (fun front => single.1 front.1)]
        at inside
      exact ih single.2 inside
  | @skip blanks _ _ later blank _ ih =>
      have noBackslash : '\\' ∉ Text.ofString "displaystyle" ++ blanks := by
        rw [List.mem_append, not_or]
        exact ⟨by decide, Text.not_mem_of_isBlankText blank (by decide)⟩
      rw [command_eq, List.cons_append, List.infix_cons_iff] at inside
      rcases inside with front | inside
      · exact (List.cons_prefix_cons.mp (List.cons_prefix_cons.mp front).2).1
      · rw [← List.append_assoc, Text.infix_append_iff_of_head_not_mem noBackslash] at inside
        exact ih single inside

theorem not_mem_of_visible (padded : Padded word text) {c : Char} (foreign : c ∉ word)
    (noCommand : c ∉ command) (visible : Text.isBlank c = false) : c ∉ text := by
  induction padded with
  | nil => exact foreign
  | letter d _ ih =>
      rw [List.mem_cons, not_or] at foreign ⊢
      exact ⟨foreign.1, ih foreign.2⟩
  | skip blanks blank _ ih =>
      rw [List.mem_append, List.mem_append, not_or, not_or]
      exact ⟨noCommand, Text.not_mem_of_isBlankText blank visible, ih foreign⟩

theorem getLast?_eq (padded : Padded word text) : text.getLast? = word.getLast? := by
  induction padded with
  | nil => rfl
  | letter c _ ih => rw [List.getLast?_cons, List.getLast?_cons, ih]
  | skip _ _ _ ih =>
      rw [List.getLast?_append, List.getLast?_append, ih]
      simp [List.getLast?_cons]

end Padded

/-- A text that spells a word with at least one display-style command between its letters. -/
inductive Interrupted : Text → Text → Prop where
  /-- A word whose letters behind the first are spelled with commands. -/
  | intro (c : Char) {letters text : Text} (padded : Padded letters text)
      (other : text ≠ letters) : Interrupted (c :: letters) (c :: text)

/-- What stands behind the backslash of a command that a display-style command can interrupt: a few
visible letters, or a single one where a backslash makes a mark of it. -/
structure IsShortCommand (letters : Text) : Prop where
  /-- Some letters. -/
  nonempty : letters ≠ []
  /-- Not more of them than a display-style command has. -/
  short : letters.length < command.length
  /-- The letters are visible, and neither backslashes nor dollars. -/
  plain : ∀ c ∈ letters, c ≠ '\\' ∧ c ≠ '$' ∧ Text.isBlank c = false
  /-- No other letter follows a mark. -/
  mark_alone : ∀ c later, letters = c :: later → startsMark c → later = []

theorem IsShortCommand.getLast?_ne {letters : Text} (short : IsShortCommand letters) :
    ('\\' :: letters).getLast? ≠ some '\\' := by
  have last := List.getLast?_eq_some_getLast short.nonempty
  rw [List.getLast?_cons, last, Option.getD_some, Ne, Option.some.injEq]
  exact (short.plain _ (List.getLast_mem short.nonempty)).1

section Infix

variable {letters text : Text}

theorem exists_padded_of_prefix {word : Text} (front : word <+: dropCommands text) :
    ∃ part, part <+: text ∧ Padded word part := by
  induction text using commands_induction generalizing word with
  | nil =>
      rw [dropCommands_nil, List.prefix_nil] at front
      exact ⟨[], List.nil_prefix, front ▸ .nil⟩
  | command text ih =>
      cases word with
      | nil => exact ⟨[], List.nil_prefix, .nil⟩
      | cons c word =>
          rw [dropCommands_command] at front
          obtain ⟨part, ⟨rest, whole⟩, padded⟩ := ih front
          refine ⟨_, ⟨rest, ?_⟩, .skip _ (Text.isBlankText_takeWhile text) padded⟩
          rw [List.append_assoc, List.append_assoc, whole, List.takeWhile_append_dropWhile]
  | letter c text absent ih =>
      cases word with
      | nil => exact ⟨[], List.nil_prefix, .nil⟩
      | cons d word =>
          rw [dropCommands_cons absent] at front
          obtain ⟨rfl, later⟩ := List.cons_prefix_cons.mp front
          obtain ⟨part, behind, padded⟩ := ih later
          exact ⟨d :: part, List.cons_prefix_cons.mpr ⟨rfl, behind⟩, .letter d padded⟩

/-- A word that is left had its letters one after another before, and what spelled it there was no
command. -/
theorem exists_padded_of_infix {first : Char} (inside : first :: letters <:+: dropCommands text) :
    ∃ part, first :: part <:+: text ∧ Padded letters part ∧ first :: part ≠ command := by
  induction text using commands_induction with
  | nil => simp at inside
  | command text ih =>
      rw [dropCommands_command] at inside
      obtain ⟨part, within, spelled⟩ := ih inside
      have behind : text.dropWhile Text.isBlank <:+ command ++ text :=
        (List.dropWhile_suffix _).trans (List.suffix_append _ _)
      exact ⟨part, within.trans behind.isInfix, spelled⟩
  | letter c text absent ih =>
      rw [dropCommands_cons absent, List.infix_cons_iff] at inside
      rcases inside with front | inside
      · obtain ⟨rfl, later⟩ := List.cons_prefix_cons.mp front
        obtain ⟨part, behind, padded⟩ := exists_padded_of_prefix later
        have whole : first :: part <+: first :: text := List.cons_prefix_cons.mpr ⟨rfl, behind⟩
        exact ⟨part, whole.isInfix, padded, fun same => absent (same ▸ whole)⟩
      · obtain ⟨part, within, spelled⟩ := ih inside
        exact ⟨part, List.infix_cons within, spelled⟩

/-- An interrupted word comes together. -/
theorem Interrupted.infix_dropCommands (short : IsShortCommand letters) {part : Text}
    (interrupted : Interrupted ('\\' :: letters) part) (inside : part <:+: text) :
    '\\' :: letters <:+: dropCommands text := by
  obtain ⟨left, right, rfl⟩ := inside
  cases interrupted with
  | @intro _ _ rest padded other =>
      have stays : ¬ command <+: '\\' :: (rest ++ right) := by
        rw [command_eq, List.cons_prefix_cons]
        rintro ⟨_, front⟩
        exact other (padded.eq_of_prefix (by decide) (Nat.le_of_lt_succ short.short) front)
      have plain : ∀ c ∈ letters, c ≠ '\\' ∧ Text.isBlank c = false := fun c member =>
        ⟨(short.plain c member).1, (short.plain c member).2.2⟩
      rw [List.append_assoc, List.cons_append, dropCommands_append_backslash,
        dropCommands_cons stays, padded.dropCommands_append plain]
      exact ⟨dropCommands left, dropCommands right, by simp⟩

/-- Behind the commands a word that starts with a backslash is found exactly where commands have
interrupted it, unless it stood in the text before without being one of them. -/
theorem infix_dropCommands_iff (short : IsShortCommand letters)
    (absent : '\\' :: letters <:+: text → '\\' :: letters = command) :
    '\\' :: letters <:+: dropCommands text ↔
      ∃ part, Interrupted ('\\' :: letters) part ∧ part <:+: text := by
  constructor
  · intro inside
    obtain ⟨part, within, padded, other⟩ := exists_padded_of_infix inside
    refine ⟨_, .intro '\\' padded ?_, within⟩
    rintro rfl
    exact other (absent within)
  · rintro ⟨part, interrupted, inside⟩
    exact interrupted.infix_dropCommands short inside

theorem Interrupted.isBystander (short : IsShortCommand letters) {part : Text}
    (interrupted : Interrupted ('\\' :: letters) part) : IsBystander startsMark part := by
  cases interrupted with
  | @intro _ _ rest padded other =>
      have single : '\\' ∉ letters := fun member => (short.plain _ member).1 rfl
      constructor
      case no_dollar =>
        rw [List.mem_cons, not_or]
        refine ⟨by decide, padded.not_mem_of_visible ?_ (by decide) (by decide)⟩
        exact fun member => (short.plain _ member).2.1 rfl
      case no_mark =>
        intro letter mark inside
        rw [List.infix_cons_iff] at inside
        rcases inside with front | inside
        · obtain ⟨later, rfl⟩ := (List.cons_prefix_cons.mp front).2
          obtain ⟨c, word, rfl⟩ := List.exists_cons_of_ne_nil short.nonempty
          rcases padded.cons_cases with ⟨behind, whole, spelled⟩ | ⟨behind, whole⟩
          · obtain ⟨rfl, rfl⟩ := List.cons.inj whole
            obtain rfl := short.mark_alone letter word rfl mark
            cases spelled
            exact other rfl
          · rw [(List.cons.inj whole).1] at mark
            exact absurd mark (by decide)
        · rw [padded.eq_of_infix single inside] at mark
          exact absurd mark (by decide)
      case no_backslash =>
        rw [List.getLast?_cons, padded.getLast?_eq, ← List.getLast?_cons]
        exact short.getLast?_ne

end Infix

end DisplayStyle
end DollarMath
