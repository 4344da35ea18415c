import DollarMath.Proofs.Markup.Interrupted
import DollarMath.Proofs.Tidy

/-!
# Words of LaTeX that a conversion leaves

A conversion replaces the four delimiters and drops the display-style commands, each in one pass.
When the commands go, what they interrupted comes together, and no stage looks at it again: it is
found in the converted text.  Nothing else of these words is, since the stages behind the commands
bring no two letters of such a word together.
-/

namespace DollarMath

/-- The words of LaTeX that a conversion replaces or drops: delimiters and display-style
commands. -/
def latexWords : List Text :=
  Delimiter.words ++ [DisplayStyle.command]

/-- The last four stages neither make nor break a word of characters that they do not touch. -/
theorem infix_finish_iff {word : Text}
    (plain : ∀ c ∈ word, Text.isBlank c = false ∧ Text.isBrace c = false ∧
      Script.isScript c = false ∧ c ≠ '$')
    (last : word.getLast? ≠ some '\\') (text : Text) :
    word <:+: Text.strip (Brace.dropDoubled (Layout.normalize (Script.escapeBare text))) ↔
      word <:+: text := by
  have visible : ∀ c ∈ word, Text.isBlank c = false := fun c member => (plain c member).1
  have noDollar : '$' ∉ word := fun member => (plain _ member).2.2.2 rfl
  have escaped := (Script.infix_escapeFrom_iff (fun c member => (plain c member).2.2.1) last false
    text).2
  rw [← escaped]
  constructor
  · intro inside
    have normal := infix_normalize (fun c member => (plain c member).2.1) inside
    exact Layout.infix_of_visible_infix_normalize noDollar visible normal
  · intro inside
    refine (Text.Thins.infix_after ?_ (thins_finish _)).2 inside
    exact fun c member => ⟨visible c member, (plain c member).2.1⟩

theorem exists_letters_of_mem_latexWords {word : Text} (member : word ∈ latexWords) :
    ∃ letters, word = '\\' :: letters ∧ DisplayStyle.IsShortCommand letters ∧
      ∀ c ∈ letters, Text.isBrace c = false ∧ Script.isScript c = false := by
  rcases List.mem_append.mp member with delimiter | command
  · obtain ⟨letter, dollars, rfl, marked⟩ := Delimiter.exists_of_mem_words delimiter
    have facts : letter ≠ '\\' ∧ letter ≠ '$' ∧ Text.isBlank letter = false ∧
        Text.isBrace letter = false ∧ Script.isScript letter = false := by
      rcases Delimiter.dollars?_eq_some_iff.mp marked with ⟨rfl | rfl, _⟩ | ⟨rfl | rfl, _⟩ <;>
        decide
    obtain ⟨noBackslash, noDollar, visible, others⟩ := facts
    refine ⟨[letter], rfl, ?_, by simpa using others⟩
    constructor
    case nonempty => simp
    case short =>
      rw [List.length_singleton]
      decide
    case plain => simpa using ⟨noBackslash, noDollar, visible⟩
    case mark_alone =>
      intro c later same _
      exact (List.cons.inj same).2.symm
  · obtain rfl := List.mem_singleton.mp command
    have facts : (Text.ofString "displaystyle").all fun c => c != '\\' && c != '$' &&
        !Text.isBlank c && !Text.isBrace c && !Script.isScript c := by decide
    simp only [List.all_eq_true, Bool.and_eq_true, bne_iff_ne, Bool.not_eq_true', and_assoc]
      at facts
    refine ⟨_, DisplayStyle.command_eq, ?_, fun c inside => (facts c inside).2.2.2⟩
    constructor
    case nonempty => decide
    case short => decide
    case plain =>
      intro c inside
      obtain ⟨noBackslash, noDollar, visible, _⟩ := facts c inside
      exact ⟨noBackslash, noDollar, visible⟩
    case mark_alone =>
      intro c later same mark
      rw [← (List.cons.inj same).1] at mark
      exact absurd mark (by decide)

/-- The converted text has a delimiter or a display-style command exactly where the text has its
letters with display-style commands between them. -/
theorem latexWord_infix_convert_iff {word : Text} (member : word ∈ latexWords) (text : Text) :
    word <:+: convert text ↔ ∃ part, DisplayStyle.Interrupted word part ∧ part <:+: text := by
  obtain ⟨letters, rfl, short, untouched⟩ := exists_letters_of_mem_latexWords member
  have plain : ∀ c ∈ '\\' :: letters, Text.isBlank c = false ∧ Text.isBrace c = false ∧
      Script.isScript c = false ∧ c ≠ '$' := by
    rw [List.forall_mem_cons]
    refine ⟨by decide, fun c inside => ?_⟩
    exact ⟨(short.plain c inside).2.2, (untouched c inside).1, (untouched c inside).2,
      (short.plain c inside).2.1⟩
  rw [convert_eq_applyAll]
  change _ <:+: Text.strip (Brace.dropDoubled (Layout.normalize (Script.escapeBare
    (DisplayStyle.dropCommands (Matrix.blockMatrices (Environment.blockAligned
      (Delimiter.dollarBlocks (Delimiter.dollarInline text)))))))) ↔ _
  rw [infix_finish_iff plain short.getLast?_ne, DisplayStyle.infix_dropCommands_iff short]
  · refine exists_congr fun part => and_congr_right fun interrupted => ?_
    have bystander := interrupted.isBystander short
    cases interrupted with
    | intro _ _ _ => exact ((SameBystanders.dollars text).inside _ bystander).symm
  · intro inside
    rcases List.mem_append.mp member with delimiter | command
    · obtain ⟨letter, dollars, same, marked⟩ := Delimiter.exists_of_mem_words delimiter
      rw [same] at inside
      exact absurd inside (delimiter_absent marked text)
    · exact List.mem_singleton.mp command

/-- A line break with a display-style command and a parenthesis behind it ends up as a delimiter. -/
theorem latexWord_infix_convert_of_line_break :
    Text.ofString "\\(" ∈ latexWords ∧
      Text.ofString "\\(" <:+: convert "a \\\\\\displaystyle (b)" := by
  have member : Text.ofString "\\(" ∈ latexWords := by decide
  have interrupted : DisplayStyle.Interrupted "\\(" "\\\\displaystyle (" :=
    .intro '\\' (.skip [' '] rfl (.letter '(' .nil)) (by decide)
  refine ⟨member, (latexWord_infix_convert_iff member _).mpr ⟨_, interrupted, ?_⟩⟩
  exact ⟨Text.ofString "a \\", Text.ofString "b)", rfl⟩

/-- A command that another one cuts in two is left when the other one goes. -/
theorem command_infix_convert_of_split_command :
    DisplayStyle.command <:+: convert "\\dis\\displaystyle playstyle x" := by
  decide +kernel

end DollarMath
