import DollarMath.Proofs.Command.Progress

/-!
# Command lines

What the words of a command line come to: which lines do not convert anything, and which lines ask
for the conversion of given sources.
-/

namespace DollarMath
namespace Command

variable {habits : Habits} {line : List Text} {world : World} {arguments : Arguments}

namespace Arguments

/-- Whether the converted texts would have to go to two places, or back to the standard input. -/
def Clashes (arguments : Arguments) : Prop :=
  arguments.inPlace = true ∧ (arguments.output.isSome = true ∨ .stdin ∈ arguments.sourcesOrStdin)

instance (arguments : Arguments) : Decidable arguments.Clashes :=
  inferInstanceAs (Decidable (_ ∧ _))

theorem exists_checked_of_clashes (clash : arguments.Clashes) :
    ∃ error, arguments.checked = .error error := by
  obtain ⟨inPlace, output | stdin⟩ := clash
  · exact ⟨.inPlaceWithOutput, if_pos ⟨inPlace, output⟩⟩
  · rw [checked]
    split
    · exact ⟨_, rfl⟩
    · exact ⟨.inPlaceWithStdin, if_pos ⟨inPlace, stdin⟩⟩

theorem checked_of_not_clashes (clear : ¬ arguments.Clashes) :
    arguments.checked = .ok arguments := by
  have noOutput : ¬ (arguments.inPlace = true ∧ arguments.output.isSome = true) :=
    fun both => clear ⟨both.1, .inl both.2⟩
  have noStdin : ¬ (arguments.inPlace = true ∧ .stdin ∈ arguments.sourcesOrStdin) :=
    fun both => clear ⟨both.1, .inr both.2⟩
  rw [checked, if_neg noOutput, if_neg noStdin]

end Arguments

section Run

theorem run_of_stop {stop : Stop} (stopped : Arguments.ofTexts habits line = .error stop)
    (world : World) :
    (run habits line world).store = world.store ∧
      (stop ≠ .help → (run habits line world).stdout = []) := by
  rw [run, stopped]
  cases stop with
  | help => exact ⟨rfl, fun refused => (refused rfl).elim⟩
  | error error => exact ⟨rfl, fun _ => rfl⟩

theorem run_of_examples (parsed : Arguments.ofTexts habits line = .ok arguments)
    (shown : arguments.examples = true) (world : World) :
    run habits line world = ⟨0, showGallery, [], [], world.store⟩ := by
  rw [run, parsed]
  exact if_pos shown

theorem run_of_clashes (parsed : Arguments.ofTexts habits line = .ok arguments)
    (toConvert : arguments.examples = false) (clash : arguments.Clashes) (world : World) :
    (run habits line world).store = world.store ∧ (run habits line world).stdout = [] := by
  obtain ⟨error, refused⟩ := Arguments.exists_checked_of_clashes clash
  simp [run, parsed, toConvert, refused]

theorem exit_of_clashes (parsed : Arguments.ofTexts habits line = .ok arguments)
    (toConvert : arguments.examples = false) (clash : arguments.Clashes) (world : World) :
    (run habits line world).exit = 2 := by
  obtain ⟨error, refused⟩ := Arguments.exists_checked_of_clashes clash
  simp [run, parsed, toConvert, refused]

/-- A run on this line starts to convert with these arguments. -/
structure Starts (habits : Habits) (line : List Text) (arguments : Arguments) : Prop where
  /-- The line is read as the arguments. -/
  parsed : Arguments.ofTexts habits line = .ok arguments
  /-- The gallery is not asked for. -/
  toConvert : arguments.examples = false
  /-- The converted texts have a place to go to. -/
  clear : ¬ arguments.Clashes

theorem Starts.of_toOutput (parsed : Arguments.ofTexts habits line = .ok arguments)
    (toConvert : arguments.examples = false) (toOutput : arguments.inPlace = false) :
    Starts habits line arguments :=
  ⟨parsed, toConvert, fun clash => Bool.false_ne_true (toOutput.symm.trans clash.1)⟩

/-- A run that starts converts all its sources before it comes to its end. -/
theorem Starts.run_eq (starts : Starts habits line arguments) (world : World) :
    run habits line world =
      (Progress.behind arguments world arguments.sourcesOrStdin).finish arguments := by
  simp only [run, starts.parsed, starts.toConvert, Arguments.checked_of_not_clashes starts.clear]
  rfl

end Run

/-- A command line asks for the conversion of these sources, to an output or in place. -/
def Asks (habits : Habits) (line : List Text) (sources : List Source) (output : Option Text)
    (inPlace : Bool) : Prop :=
  ∃ arguments, Arguments.ofTexts habits line = .ok arguments ∧ arguments.examples = false ∧
    arguments.sourcesOrStdin = sources ∧ arguments.output = output ∧ arguments.inPlace = inPlace

section Operands

variable {names texts : List Text} {words : List Word} {output : Text}

/-- A word that names a source or is the value of a switch wherever it stands. -/
def IsOperand (text : Text) : Prop :=
  Word.ofText text = .ok (.operand text)

theorem isOperand_of_head?_ne {text : Text} (plain : text.head? ≠ some '-') : IsOperand text := by
  rw [IsOperand, Word.ofText]
  intro c rest same
  exact plain (congrArg List.head? same)

theorem isOperand_dash : IsOperand "-" := rfl

theorem IsOperand.ne_dashes {text : Text} (operand : IsOperand text) : text ≠ dashes := by
  rintro rfl
  revert operand
  rw [IsOperand]
  decide

theorem words_append (operands : ∀ name ∈ names, IsOperand name)
    (read : Word.ofTexts texts = .ok words) :
    Word.ofTexts (names ++ texts) = .ok (names.map .operand ++ words) := by
  induction names with
  | nil => exact read
  | cons name names ih =>
      have operand := operands name List.mem_cons_self
      have later := ih fun other member => operands other (List.mem_cons_of_mem name member)
      rw [List.cons_append, Word.ofTexts, if_neg operand.ne_dashes, operand, later]
      rfl

theorem words_operands (operands : ∀ name ∈ names, IsOperand name) :
    Word.ofTexts names = .ok (names.map .operand) := by
  have ended : Word.ofTexts [] = .ok [] := rfl
  simpa using words_append operands ended

theorem ofTexts_of_words (read : Word.ofTexts texts = .ok words) :
    Arguments.ofTexts habits texts = (Reading.start.readFrom habits words).bind Reading.finish := by
  rw [Arguments.ofTexts, read]

theorem readFrom_operands (habits : Habits) (reading : Reading) (going : reading.row ≠ .behind)
    (names : List Text) (words : List Word) :
    ∃ row, row ≠ .behind ∧ reading.readFrom habits (names.map .operand ++ words) =
      Reading.readFrom habits
        ⟨{ reading.arguments with
            sources := reading.arguments.sources ++ names.map Source.ofText },
          row, reading.leftovers⟩ words := by
  induction names generalizing reading with
  | nil => exact ⟨reading.row, going, by simp⟩
  | cons name names ih =>
      have inside : (reading.operand name).row ≠ .behind := by simp [Reading.operand, going]
      obtain ⟨row, goingOn, read⟩ := ih (reading.operand name) inside
      refine ⟨row, goingOn, ?_⟩
      rw [List.map_cons, List.cons_append, Reading.readFrom, read, Reading.operand, if_neg going]
      simp

theorem ofTexts_operands (operands : ∀ name ∈ names, IsOperand name) :
    Arguments.ofTexts habits names =
      .ok { Arguments.initial with sources := names.map Source.ofText } := by
  obtain ⟨row, _, read⟩ := readFrom_operands habits .start (by decide) names []
  rw [List.append_nil] at read
  rw [ofTexts_of_words (words_operands operands), read]
  rfl

theorem ofTexts_operands_output (operands : ∀ name ∈ names, IsOperand name)
    (operand : IsOperand output) (named : output ≠ []) :
    Arguments.ofTexts habits (names ++ [Text.ofString "-o", output]) =
      .ok { Arguments.initial with
        sources := names.map Source.ofText
        output := some output } := by
  have value : Word.ofTexts [Text.ofString "-o", output] =
      .ok [.spelled (.bare .output), .operand output] := by
    have switch : Word.ofText "-o" = .ok (.spelled (.bare .output)) := by decide
    rw [Word.ofTexts, if_neg (by decide), switch, Word.ofTexts, if_neg operand.ne_dashes, operand]
    rfl
  have file : Reading.outputOf? habits output = some output :=
    if_neg (not_or.mpr ⟨named, fun dropped => operand.ne_dashes dropped.1⟩)
  obtain ⟨row, _, read⟩ := readFrom_operands habits .start (by decide) names
    [.spelled (.bare .output), .operand output]
  rw [ofTexts_of_words (words_append operands value), read]
  change Except.ok { Arguments.initial with
    sources := names.map Source.ofText
    output := Reading.outputOf? habits output } = _
  rw [file]

theorem ofTexts_inPlace_operands (operands : ∀ name ∈ names, IsOperand name) :
    Arguments.ofTexts habits ("--in-place" :: names) =
      .ok { Arguments.initial with
        sources := names.map Source.ofText
        inPlace := true } := by
  have switch : Word.ofText "--in-place" = .ok (.spelled (.bare (.flag .inPlace))) := by decide
  have words : Word.ofTexts ("--in-place" :: names) =
      .ok (.spelled (.bare (.flag .inPlace)) :: names.map .operand) := by
    rw [Word.ofTexts, if_neg (by decide), switch, words_operands operands]
    rfl
  have raised : Reading.start.act [.inPlace] =
      .ok ⟨{ Arguments.initial with inPlace := true }, .ahead, []⟩ := rfl
  obtain ⟨row, _, read⟩ := readFrom_operands habits
    ⟨{ Arguments.initial with inPlace := true }, .ahead, []⟩ (by decide) names []
  rw [List.append_nil] at read
  rw [ofTexts_of_words words, Reading.readFrom]
  simp only [Cluster.ofSpelled, Cluster.ofLast, raised]
  change (Reading.readFrom habits _ (names.map .operand)).bind Reading.finish = _
  rw [read]
  rfl

/-- The sources that operands name: the standard input where there are none. -/
def Source.ofOperands (names : List Text) : List Source :=
  if names = [] then [.stdin] else names.map Source.ofText

theorem sourcesOrStdin_of_operands {names : List Text}
    (named : arguments.sources = names.map Source.ofText) :
    arguments.sourcesOrStdin = Source.ofOperands names := by
  rw [Arguments.sourcesOrStdin, Source.ofOperands, named]
  simp only [List.map_eq_nil_iff]

theorem asks_operands (operands : ∀ name ∈ names, IsOperand name) :
    Asks habits names (Source.ofOperands names) none false :=
  ⟨_, ofTexts_operands operands, rfl, sourcesOrStdin_of_operands rfl, rfl, rfl⟩

theorem asks_operands_output (operands : ∀ name ∈ names, IsOperand name)
    (operand : IsOperand output) (named : output ≠ []) :
    Asks habits (names ++ [Text.ofString "-o", output]) (Source.ofOperands names) (some output)
      false :=
  ⟨_, ofTexts_operands_output operands operand named, rfl, sourcesOrStdin_of_operands rfl, rfl,
    rfl⟩

theorem asks_inPlace_operands (operands : ∀ name ∈ names, IsOperand name) :
    Asks habits ("--in-place" :: names) (Source.ofOperands names) none true :=
  ⟨_, ofTexts_inPlace_operands operands, rfl, sourcesOrStdin_of_operands rfl, rfl, rfl⟩

end Operands

end Command
end DollarMath
