import DollarMath.Proofs.Prose
import DollarMath.Proofs.Service.Answer

/-!
# How long a converted text can get

Three stages write more than they read: the two for environments and the one for script characters.
Every character of a text has room for one more.  What is written around an environment goes into
the room of the words that start and end it, and an escape goes into the room of its script
character; braces keep their room until the matrix environments are passed and script characters
until they are escaped, so no room is used twice.
-/

namespace DollarMath

namespace Text

theorem weigh_le_weigh {weight weight' : Char → Int} (le : ∀ c, weight c ≤ weight' c)
    (text : Text) : weigh weight text ≤ weigh weight' text := by
  induction text with
  | nil => simp
  | cons c text ih =>
      have here := le c
      rw [weigh_cons, weigh_cons]
      omega

theorem weigh_const (weight : Int) (text : Text) :
    weigh (fun _ => weight) text = weight * text.length := by
  induction text with
  | nil => simp
  | cons c text ih =>
      rw [weigh_cons, ih, List.length_cons, Int.natCast_succ, Int.mul_add, Int.mul_one,
        Int.add_comm]

end Text

/-- A substitution keeps within the room of a text when each occurrence is rewritten within its
own. -/
theorem Pattern.weigh_substituteAt_le {α : Type} (pattern : Pattern α) {write : Nat → α → Text}
    {room room' : Char → Int} (less : ∀ c, room' c ≤ room c)
    (within : ∀ offset occurrence, pattern.Occurs occurrence →
      write offset occurrence ≠ pattern.source occurrence →
        Text.weigh room' (write offset occurrence) ≤ Text.weigh room (pattern.source occurrence))
    (text : Text) :
    Text.weigh room' (pattern.substituteAt write text) ≤ Text.weigh room text := by
  refine @substituteAt_rel α pattern
    (fun before after => Text.weigh room' after ≤ Text.weigh room before) write (by simp) ?_ ?_ text
  · intro c before after fits
    have here := less c
    rw [Text.weigh_cons, Text.weigh_cons]
    omega
  · intro offset occurrence before after occurs rewritten fits
    have here := within offset occurrence occurs rewritten
    rw [Text.weigh_append, Text.weigh_append]
    omega

theorem Pattern.weigh_substitute_le {α : Type} (pattern : Pattern α) {write : α → Text}
    {room room' : Char → Int} (less : ∀ c, room' c ≤ room c)
    (within : ∀ occurrence, pattern.Occurs occurrence →
      Text.weigh room' (write occurrence) ≤ Text.weigh room (pattern.source occurrence))
    (text : Text) :
    Text.weigh room' (pattern.substitute write text) ≤ Text.weigh room text := by
  rw [← substituteAt_const]
  exact pattern.weigh_substituteAt_le less (fun _ occurrence occurs _ => within occurrence occurs)
    text

namespace Room

/-- Every character has room for one more. -/
def full (_ : Char) : Int := 2

/-- Only script characters and braces have room for one more. -/
def scriptsAndBraces (c : Char) : Int :=
  if Script.isScript c || Text.isBrace c then 2 else 1

/-- Only script characters have room for one more. -/
def scripts (c : Char) : Int :=
  if Script.isScript c then 2 else 1

theorem scriptsAndBraces_le_full (c : Char) : scriptsAndBraces c ≤ full c := by
  unfold scriptsAndBraces full
  split <;> omega

theorem scripts_le_scriptsAndBraces (c : Char) : scripts c ≤ scriptsAndBraces c := by
  unfold scripts scriptsAndBraces
  cases Script.isScript c <;> cases Text.isBrace c <;> simp

theorem length_le_weigh_scripts (text : Text) : (text.length : Int) ≤ Text.weigh scripts text := by
  have one : ∀ c, 1 ≤ scripts c := fun c => by
    unfold scripts
    split <;> omega
  have whole := Text.weigh_le_weigh one text
  rwa [Text.weigh_const, Int.one_mul] at whole

end Room

theorem Delimiter.length_toDollars_le (text : Text) : (toDollars text).length ≤ text.length := by
  fun_induction toDollars text with
  | case1 => exact Nat.le_refl _
  | case2 c => exact Nat.le_refl _
  | case3 letter text dollars delimiter ih =>
      rcases eq_of_dollars? delimiter with rfl | rfl <;>
        simp only [List.length_append, List.length_cons, List.length_nil] <;> omega
  | case4 letter text other ih => simpa using ih
  | case5 c letter text plain ih => simpa using ih

/-- The words around an aligned environment have room for the block markers and the other name. -/
theorem Environment.weigh_blockAligned_le (text : Text) :
    Text.weigh Room.scriptsAndBraces (blockAligned text) ≤ Text.weigh Room.full text := by
  refine aligned.weigh_substitute_le Room.scriptsAndBraces_le_full ?_ text
  rintro ⟨name, body⟩ ⟨_, _, read⟩
  have names : ∀ name ∈ alignedNames, 48 ≤ Text.weigh Room.full (opening name) +
      Text.weigh Room.full (closing name) := by
    decide
  have block : Text.weigh Room.scriptsAndBraces (opening alignedBlockName) +
      Text.weigh Room.scriptsAndBraces (closing alignedBlockName) +
        2 * Text.weigh Room.scriptsAndBraces Delimiter.blockMarker = 36 := by
    decide
  have around := names name (name_mem_of_read? read)
  have inside := Text.weigh_le_weigh Room.scriptsAndBraces_le_full body
  simp only [aligned, source, Text.weigh_append]
  omega

/-- The braces of a matrix environment have room for the block markers. -/
theorem Environment.weigh_source_add_le (environment : Environment) :
    Text.weigh Room.scripts environment.source + 4 ≤
      Text.weigh Room.scriptsAndBraces environment.source := by
  obtain ⟨name, body⟩ := environment
  have words : Text.weigh Room.scripts "\\begin\x7b" + Text.weigh Room.scripts "\\end\x7b" +
      2 * Text.weigh Room.scripts "\x7d" + 4 =
        Text.weigh Room.scriptsAndBraces "\\begin\x7b" +
          Text.weigh Room.scriptsAndBraces "\\end\x7b" +
            2 * Text.weigh Room.scriptsAndBraces "\x7d" := by
    decide
  have inName := Text.weigh_le_weigh Room.scripts_le_scriptsAndBraces name
  have inBody := Text.weigh_le_weigh Room.scripts_le_scriptsAndBraces body
  simp only [source, opening, closing, Text.weigh_append]
  omega

theorem Matrix.weigh_blockMatrices_le (text : Text) :
    Text.weigh Room.scripts (blockMatrices text) ≤ Text.weigh Room.scriptsAndBraces text := by
  refine occurrences.weigh_substituteAt_le Room.scripts_le_scriptsAndBraces ?_ text
  intro offset occurrence _ rewritten
  have marker : Text.weigh Room.scripts Delimiter.blockMarker = 2 := by decide
  have around := occurrence.environment.weigh_source_add_le
  have before := Text.weigh_le_weigh Room.scripts_le_scriptsAndBraces occurrence.before
  have behind := Text.weigh_le_weigh Room.scripts_le_scriptsAndBraces occurrence.behind
  split at rewritten
  · exact absurd rfl rewritten
  · rename_i bare
    rw [if_neg bare]
    simp only [occurrences, Occurrence.displayed, Occurrence.source, Text.weigh_append, marker]
    omega

theorem DisplayStyle.weigh_dropCommands_le (text : Text) :
    Text.weigh Room.scripts (dropCommands text) ≤ Text.weigh Room.scripts text := by
  refine occurrences.weigh_substitute_le (fun _ => Int.le_refl _) ?_ text
  intro blanks _
  have filled := Room.length_le_weigh_scripts (occurrences.source blanks)
  rw [Text.weigh_nil]
  omega

theorem Script.length_escapeFrom_le (escaped : Bool) (text : Text) :
    ((escapeFrom escaped text).length : Int) ≤ Text.weigh Room.scripts text := by
  induction text generalizing escaped with
  | nil => simp [escapeFrom]
  | cons c text ih =>
      have later := ih (c == '\\')
      rw [escapeFrom, Text.weigh_cons, Room.scripts]
      by_cases script : isScript c
      · rw [if_pos script]
        split <;> simp only [List.length_cons] <;> omega
      · rw [if_neg script, if_neg (by simp [script]), List.length_cons]
        omega

/-- The stages that write more than they read keep within the room of a text. -/
theorem length_convert_le (text : Text) : (convert text).length ≤ 2 * text.length := by
  let dollared := Delimiter.toDollars text
  let aligned := Environment.blockAligned dollared
  let displayed := Matrix.blockMatrices aligned
  let stripped := DisplayStyle.dropCommands displayed
  let escaped := Script.escapeBare stripped
  have whole : convert text = Text.strip (Brace.dropDoubled (Layout.normalize escaped)) := by
    rw [convert_eq_applyAll]
    simp only [escaped, stripped, displayed, aligned, dollared,
      ← Delimiter.dollarBlocks_dollarInline]
    rfl
  have finish : (convert text).length ≤ escaped.length := by
    rw [whole]
    exact (thins_finish escaped).sublist.length_le
  have room : ((convert text).length : Int) ≤ 2 * text.length := calc
    ((convert text).length : Int) ≤ escaped.length := by exact_mod_cast finish
    _ ≤ Text.weigh Room.scripts stripped := Script.length_escapeFrom_le false stripped
    _ ≤ Text.weigh Room.scripts displayed := DisplayStyle.weigh_dropCommands_le displayed
    _ ≤ Text.weigh Room.scriptsAndBraces aligned := Matrix.weigh_blockMatrices_le aligned
    _ ≤ Text.weigh Room.full dollared := Environment.weigh_blockAligned_le dollared
    _ = 2 * dollared.length := Text.weigh_const 2 dollared
    _ ≤ 2 * text.length := by
      have shorter : dollared.length ≤ text.length := Delimiter.length_toDollars_le text
      omega
  exact_mod_cast room

/-- A conversion makes a text at most twice as long, and an answer says so, whichever framework
carries it: the length that it gives for the converted text is at most twice the one for the text
that was sent. -/
theorem conversion_at_most_doubles :
    (∀ text, (convert text).length ≤ 2 * text.length) ∧
      ∀ framework : Service.Framework, framework.Carries →
        ∀ (limit : Int) (request : Service.Request), framework.isForConversion request →
          let answer := framework.respond (Service.handlers limit) request
          answer.status = 200 →
          ∃ input output : Nat,
            answer.body.field? "inputChars" = some (Json.ofNat input) ∧
            answer.body.field? "outputChars" = some (Json.ofNat output) ∧
            output ≤ 2 * input := by
  refine ⟨length_convert_le, ?_⟩
  intro framework carries limit request asked answer answered
  obtain ⟨text, same⟩ := carries.exists_text_of_answered asked answered
  refine ⟨text.length, (convert text).length, ?_, ?_, length_convert_le text⟩
  · simp only [answer, same, Service.field?_inputChars]
  · simp only [answer, same, Service.field?_outputChars]

/-- A request with two bare script characters, each of which is escaped. -/
theorem conversion_at_most_doubles_of_scripts :
    let answer := Service.Framework.ofEndpoints.respond (Service.handlers 2) (.toConvert "_^")
    Service.Framework.ofEndpoints.Carries ∧ answer.status = 200 ∧
      ∃ input output : Nat,
        answer.body.field? "inputChars" = some (Json.ofNat input) ∧
        answer.body.field? "outputChars" = some (Json.ofNat output) ∧
        output ≤ 2 * input := by
  intro answer
  have carries := Service.carries_ofEndpoints
  have asked := carries.isForConversion_toConvert "_^"
  have short : (Text.ofString "_^").length ≤ (2 : Int) := by decide
  have answered : answer.status = 200 := by
    simp only [answer, carries.respond_of_short short]
  exact ⟨carries, answered, conversion_at_most_doubles.2 _ carries 2 _ asked answered⟩

/-- Bare script characters alone reach the bound. -/
example : (convert "_^").length = 2 * (Text.ofString "_^").length := by
  decide +kernel

end DollarMath
