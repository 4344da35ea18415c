import DollarMath.Proofs.Conversion
import DollarMath.Proofs.Markup.Bystander

/-!
# Prose

A conversion moves, writes and drops markup and blank characters.  All other characters of a text
come out once each and in their order.  Only two stages touch the letters of a name: aligned
environments get another name and display-style commands lose theirs.
-/

namespace DollarMath
namespace Text

/-- A character that delimiters, block markers or escapes are made of. -/
def isMark (c : Char) : Bool :=
  ['\\', '$', '(', ')', '[', ']'].contains c

/-- A character that delimiters, block markers, braces or escapes are made of. -/
def isMarkup (c : Char) : Bool :=
  ['\\', '$', '(', ')', '[', ']', '\x7b', '\x7d'].contains c

/-- A character that the names of commands and environments are made of. -/
def isNameLetter (c : Char) : Bool :=
  c.isAlpha || c == '*'

/-- A character that is neither blank nor markup. -/
def isWording (c : Char) : Bool :=
  !isBlank c && !isMarkup c

/-- A character of the wording of which no name is made. -/
def isProse (c : Char) : Bool :=
  isWording c && !isNameLetter c

theorem isMarkup_of_isMark {c : Char} (mark : isMark c) : isMarkup c := by
  simp only [isMark, isMarkup, List.contains_eq_mem, decide_eq_true_eq, List.mem_cons] at mark ⊢
  grind

theorem isMarkup_of_isBrace {c : Char} (brace : isBrace c) : isMarkup c := by
  simp only [isBrace, Bool.or_eq_true, beq_iff_eq] at brace
  rcases brace with rfl | rfl <;> decide

end Text

/-- Whether a stage writes or drops the names of commands and environments. -/
def Stage.touchesNames : Stage → Bool
  | .alignedEnvironments | .displayStyle => true
  | _ => false

/-- A kind of characters among which there is no blank one and no mark. -/
structure IsUnmarkedKind (kept : Char → Bool) : Prop where
  /-- Blank characters are of another kind. -/
  no_blank : ∀ c, Text.isBlank c → kept c = false
  /-- Marks are of another kind. -/
  no_mark : ∀ c, Text.isMark c → kept c = false

/-- A kind of characters among which there is no blank one and no markup. -/
structure IsWordingKind (kept : Char → Bool) : Prop where
  /-- Blank characters are of another kind. -/
  no_blank : ∀ c, Text.isBlank c → kept c = false
  /-- Markup is of another kind. -/
  no_markup : ∀ c, Text.isMarkup c → kept c = false

/-- A kind of characters among which there are no letters of names. -/
def IsNameless (kept : Char → Bool) : Prop :=
  ∀ c, Text.isNameLetter c → kept c = false

theorem isWordingKind_isWording : IsWordingKind Text.isWording where
  no_blank c blank := by simp [Text.isWording, blank]
  no_markup c markup := by simp [Text.isWording, markup]

theorem isWordingKind_isProse : IsWordingKind Text.isProse where
  no_blank c blank := by simp [Text.isProse, Text.isWording, blank]
  no_markup c markup := by simp [Text.isProse, Text.isWording, markup]

theorem isNameless_isProse : IsNameless Text.isProse := by
  intro c letter
  simp [Text.isProse, letter]

theorem IsNameless.filter_name {kept : Char → Bool} (nameless : IsNameless kept) {name : Text}
    (letters : name.all Text.isNameLetter) : name.filter kept = [] := by
  rw [List.filter_eq_nil_iff]
  intro c member
  simp [nameless c (List.all_eq_true.mp letters c member)]

namespace IsUnmarkedKind

variable {kept : Char → Bool} (kind : IsUnmarkedKind kept)

include kind

theorem filter_marks {text : Text} (marks : text.all Text.isMark) : text.filter kept = [] := by
  rw [List.filter_eq_nil_iff]
  intro c member
  simp [kind.no_mark c (List.all_eq_true.mp marks c member)]

theorem filter_marker : Delimiter.blockMarker.filter kept = [] :=
  kind.filter_marks (by decide)

theorem filter_replace {letter : Char} {dollars : Text}
    (delimiter : Delimiter.dollars? letter = some dollars) (text : Text) :
    (Delimiter.replace letter dollars text).filter kept = text.filter kept := by
  refine Pattern.filter_substitute _ (fun _ _ => ?_) text
  change dollars.filter kept = ['\\', letter].filter kept
  rcases Delimiter.dollars?_eq_some_iff.mp delimiter with ⟨rfl | rfl, rfl⟩ | ⟨rfl | rfl, rfl⟩ <;>
    rw [kind.filter_marks (by decide), kind.filter_marks (by decide)]

theorem filter_blockAligned (nameless : IsNameless kept) (text : Text) :
    (Environment.blockAligned text).filter kept = text.filter kept := by
  have letters : ∀ name ∈ Environment.alignedBlockName :: Environment.alignedNames,
      name.all Text.isNameLetter := by
    decide
  have source : ∀ name ∈ Environment.alignedBlockName :: Environment.alignedNames, ∀ body,
      (Environment.source ⟨name, body⟩).filter kept =
        (Environment.source ⟨[], body⟩).filter kept := by
    intro name member body
    simp only [Environment.source, Environment.opening, Environment.closing, List.filter_append,
      nameless.filter_name (letters name member), List.filter_nil]
  refine Environment.aligned.filter_substitute ?_ text
  rintro ⟨name, body⟩ ⟨text, rest, read⟩
  have member := List.mem_cons_of_mem Environment.alignedBlockName
    (Environment.name_mem_of_read? read)
  rw [List.filter_append, List.filter_append, kind.filter_marker, List.nil_append,
    List.append_nil, source _ List.mem_cons_self body]
  exact (source name member body).symm

theorem filter_blockMatrices (text : Text) :
    (Matrix.blockMatrices text).filter kept = text.filter kept := by
  refine Matrix.occurrences.filter_substituteAt (fun offset occurrence _ => ?_) text
  split
  · rfl
  · simp [Matrix.occurrences, Matrix.Occurrence.displayed, Matrix.Occurrence.source,
      kind.filter_marker]

theorem filter_dropCommands (nameless : IsNameless kept) (text : Text) :
    (DisplayStyle.dropCommands text).filter kept = text.filter kept := by
  refine DisplayStyle.occurrences.filter_substitute ?_ text
  rintro blanks ⟨text, rest, read⟩
  simp only [DisplayStyle.occurrences, Option.map_eq_some_iff, Prod.mk.injEq] at read
  obtain ⟨behind, _, rfl, _⟩ := read
  have backslash : ¬ kept '\\' := by simp [kind.no_mark '\\' (by decide)]
  change [] = (DisplayStyle.command ++ behind.takeWhile Text.isBlank).filter kept
  rw [List.filter_append,
    Text.filter_of_isBlankText kind.no_blank (Text.isBlankText_takeWhile behind),
    DisplayStyle.command_eq, List.filter_cons_of_neg backslash,
    nameless.filter_name (by decide), List.nil_append]

theorem filter_escapeFrom (escaped : Bool) (text : Text) :
    (Script.escapeFrom escaped text).filter kept = text.filter kept := by
  induction text generalizing escaped with
  | nil => rfl
  | cons c text ih =>
      have backslash : ¬ kept '\\' := by simp [kind.no_mark '\\' (by decide)]
      rw [Script.escapeFrom]
      split
      · rw [List.filter_cons_of_neg backslash, List.filter_cons, List.filter_cons, ih]
      · rw [List.filter_cons, List.filter_cons, ih]

/-- A stage other than the one for braces keeps the characters of a kind; one that writes or drops
names does when no letters of names are among them. -/
theorem filter_apply {stage : Stage} (noBraces : stage ≠ .redundantBraces)
    (names : stage.touchesNames → IsNameless kept) (text : Text) :
    (stage.apply text).filter kept = text.filter kept := by
  cases stage with
  | inlineDelimiters =>
      rw [Stage.apply, Delimiter.dollarInline_eq_replace, kind.filter_replace rfl,
        kind.filter_replace rfl]
  | blockDelimiters =>
      rw [Stage.apply, Delimiter.dollarBlocks_eq_replace, kind.filter_replace rfl,
        kind.filter_replace rfl]
  | alignedEnvironments => exact kind.filter_blockAligned (names rfl) text
  | matrixEnvironments => exact kind.filter_blockMatrices text
  | displayStyle => exact kind.filter_dropCommands (names rfl) text
  | escapeScripts => exact kind.filter_escapeFrom false text
  | whitespace => exact Layout.filter_normalize kind.no_blank text
  | redundantBraces => exact absurd rfl noBraces
  | trim => exact Text.filter_strip kind.no_blank text

end IsUnmarkedKind

namespace IsWordingKind

variable {kept : Char → Bool} (kind : IsWordingKind kept)

include kind

theorem unmarked : IsUnmarkedKind kept where
  no_blank := kind.no_blank
  no_mark c mark := kind.no_markup c (Text.isMarkup_of_isMark mark)

/-- A stage keeps the characters of a kind; one that writes or drops names does when no letters of
names are among them. -/
theorem filter_apply {stage : Stage} (names : stage.touchesNames → IsNameless kept) (text : Text) :
    (stage.apply text).filter kept = text.filter kept := by
  by_cases braces : stage = .redundantBraces
  · subst braces
    exact (Brace.thins_dropDoubled text).filter_eq (by simp) fun c brace =>
      kind.no_markup c (Text.isMarkup_of_isBrace brace)
  · exact kind.unmarked.filter_apply braces names text

theorem filter_applyAll {stages : List Stage}
    (names : ∀ stage ∈ stages, stage.touchesNames → IsNameless kept) (text : Text) :
    (Stage.applyAll stages text).filter kept = text.filter kept := by
  induction stages generalizing text with
  | nil => rfl
  | cons stage stages ih =>
      rw [List.forall_mem_cons] at names
      rw [Stage.applyAll_cons, ih names.2, kind.filter_apply names.1]

end IsWordingKind

/-- Without display-style commands and aligned environments the stages that touch names have
nothing to do. -/
theorem convert_eq_applyAll_of_absent {text : Text} (noCommand : ¬ DisplayStyle.command <:+: text)
    (noAligned : ∀ name ∈ Environment.alignedNames, ¬ Environment.opening name <:+: text) :
    convert text = Stage.applyAll (Stage.all.filter (!·.touchesNames)) text := by
  have delimiters : Stage.blockDelimiters.apply (Stage.inlineDelimiters.apply text) =
      Delimiter.toDollars text := Delimiter.dollarBlocks_dollarInline text
  have aligned : Stage.alignedEnvironments.apply (Delimiter.toDollars text) =
      Delimiter.toDollars text := by
    rw [Stage.apply, Environment.blockAligned_eq_self_iff]
    intro environment member inside
    have noDollar : ∀ name ∈ Environment.alignedNames, '$' ∉ Environment.opening name := by decide
    have opened := (Environment.opening_prefix_source environment).isInfix.trans inside
    exact noAligned _ member ((Delimiter.infix_of_infix_toDollars (noDollar _ member)).2 opened)
  have commands : Stage.displayStyle.apply (Stage.matrixEnvironments.apply
      (Delimiter.toDollars text)) = Stage.matrixEnvironments.apply (Delimiter.toDollars text) := by
    have same : DisplayStyle.command <:+: text ↔ DisplayStyle.command <:+:
        Stage.matrixEnvironments.apply (Stage.alignedEnvironments.apply
          (Stage.blockDelimiters.apply (Stage.inlineDelimiters.apply text))) := by
      rw [DisplayStyle.command_eq]
      exact (SameBystanders.dollars text).inside _ isBystander_command
    rw [delimiters, aligned] at same
    exact DisplayStyle.dropCommands_eq_self_iff.mpr fun inside => noCommand (same.mpr inside)
  have quiet : Stage.all.filter (!·.touchesNames) =
      [.inlineDelimiters, .blockDelimiters, .matrixEnvironments, .escapeScripts, .whitespace,
        .redundantBraces, .trim] := rfl
  rw [convert_eq_applyAll, quiet, Stage.all]
  simp only [Stage.applyAll_cons]
  rw [delimiters, aligned, commands]

/-- No prose is lost, doubled or moved: the characters that are neither blank, nor markup, nor
letters of names stay the same.  Where no display-style command and no aligned environment stands,
the letters of names stay as well. -/
theorem convert_keeps_prose (text : Text) :
    (convert text).filter Text.isProse = text.filter Text.isProse ∧
      (¬ DisplayStyle.command <:+: text →
        (∀ name ∈ Environment.alignedNames, ¬ Environment.opening name <:+: text) →
        (convert text).filter Text.isWording = text.filter Text.isWording) := by
  constructor
  · rw [convert_eq_applyAll]
    exact isWordingKind_isProse.filter_applyAll (fun _ _ _ => isNameless_isProse) text
  · intro noCommand noAligned
    rw [convert_eq_applyAll_of_absent noCommand noAligned]
    refine isWordingKind_isWording.filter_applyAll (fun stage member touches => ?_) text
    have untouched := (List.mem_filter.mp member).2
    simp [touches] at untouched

/-- A formula with a bare script character, two spaces and doubled braces. -/
theorem convert_keeps_prose_of_formula :
    ¬ DisplayStyle.command <:+: Text.ofString "\\(a_\\)  is \x7b\x7bb\x7d\x7d " ∧
      (∀ name ∈ Environment.alignedNames,
        ¬ Environment.opening name <:+: Text.ofString "\\(a_\\)  is \x7b\x7bb\x7d\x7d ") ∧
      (convert "\\(a_\\)  is \x7b\x7bb\x7d\x7d ").filter Text.isWording = "a_isb" := by
  have noCommand :
      ¬ DisplayStyle.command <:+: Text.ofString "\\(a_\\)  is \x7b\x7bb\x7d\x7d " := by
    decide
  have noAligned : ∀ name ∈ Environment.alignedNames,
      ¬ Environment.opening name <:+: Text.ofString "\\(a_\\)  is \x7b\x7bb\x7d\x7d " := by
    decide
  refine ⟨noCommand, noAligned, ?_⟩
  rw [(convert_keeps_prose _).2 noCommand noAligned]
  decide

end DollarMath
