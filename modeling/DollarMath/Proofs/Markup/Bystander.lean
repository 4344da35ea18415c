import DollarMath.Proofs.Markup.Matrix

/-!
# Words that the first stages pass over

A stage that writes dollars acts where a backslash has a certain letter behind it: that of a
delimiter, or the first letter of the words that start and end an environment.  A word without such
a place and without dollars is passed over: when it starts with a backslash, so that no other word
reaches into it, it is found behind the stage exactly when it was found before it.
-/

namespace DollarMath

/-- Whether a backslash and this letter are a delimiter. -/
def startsDelimiter (letter : Char) : Bool :=
  (Delimiter.dollars? letter).isSome

/-- Whether a backslash and this letter start the words around an environment. -/
def startsEnvironment (letter : Char) : Bool :=
  letter == 'b' || letter == 'e'

/-- Whether one of the first stages may act on a backslash before this letter. -/
def startsMark (letter : Char) : Bool :=
  startsDelimiter letter || startsEnvironment letter

theorem startsMark_of_startsDelimiter {letter : Char} (mark : startsDelimiter letter) :
    startsMark letter := by
  simp [startsMark, mark]

theorem startsMark_of_startsEnvironment {letter : Char} (mark : startsEnvironment letter) :
    startsMark letter := by
  simp [startsMark, mark]

/-- A word in which no dollar stands and nothing starts that a backslash makes with one of the
marks, also when letters follow the word. -/
structure IsBystander (marks : Char → Bool) (word : Text) : Prop where
  /-- No dollar stands in the word. -/
  no_dollar : '$' ∉ word
  /-- No backslash has a mark behind it. -/
  no_mark : ∀ letter, marks letter → ¬ ['\\', letter] <:+: word
  /-- The last letter is no backslash. -/
  no_backslash : word.getLast? ≠ some '\\'

variable {marks marks' : Char → Bool}

namespace IsBystander

variable {word : Text} {letter : Char}

theorem mono (fewer : ∀ c, marks c → marks' c) (bystander : IsBystander marks' word) :
    IsBystander marks word where
  no_dollar := bystander.no_dollar
  no_mark letter mark := bystander.no_mark letter (fewer letter mark)
  no_backslash := bystander.no_backslash

theorem tail {c : Char} (bystander : IsBystander marks (c :: word)) : IsBystander marks word where
  no_dollar member := bystander.no_dollar (List.mem_cons_of_mem c member)
  no_mark letter mark inside := bystander.no_mark letter mark (List.infix_cons inside)
  no_backslash last := by
    refine bystander.no_backslash ?_
    rw [List.getLast?_cons, last]
    rfl

theorem eq_nil_of_prefix_mark (bystander : IsBystander marks word) (mark : marks letter)
    {text : Text} (front : word <+: '\\' :: letter :: text) : word = [] := by
  cases word with
  | nil => rfl
  | cons c word =>
      obtain ⟨rfl, later⟩ := List.cons_prefix_cons.mp front
      cases word with
      | nil => exact absurd rfl bystander.no_backslash
      | cons d word =>
          obtain ⟨rfl, _⟩ := List.cons_prefix_cons.mp later
          exact absurd ⟨[], word, rfl⟩ (bystander.no_mark d mark)

theorem prefix_of_prefix_append_mark (bystander : IsBystander marks word) (mark : marks letter)
    {left text : Text} (front : word <+: left ++ '\\' :: letter :: text) : word <+: left := by
  induction left generalizing word with
  | nil => rw [bystander.eq_nil_of_prefix_mark mark front]
  | cons c left ih =>
      cases word with
      | nil => exact List.nil_prefix
      | cons d word =>
          obtain ⟨rfl, later⟩ := List.cons_prefix_cons.mp front
          exact List.cons_prefix_cons.mpr ⟨rfl, ih bystander.tail later⟩

section Inside

variable (bystander : IsBystander marks ('\\' :: word)) (mark : marks letter)
  (noBackslash : '\\' ≠ letter)

include bystander mark noBackslash

theorem infix_mark_iff {text : Text} :
    '\\' :: word <:+: '\\' :: letter :: text ↔ '\\' :: word <:+: text := by
  have noFront : ¬ '\\' :: word <+: '\\' :: letter :: text := fun front =>
    List.cons_ne_nil _ _ (bystander.eq_nil_of_prefix_mark mark front)
  have noLetter : ¬ '\\' :: word <+: letter :: text := fun front =>
    noBackslash (List.cons_prefix_cons.mp front).1
  rw [List.infix_cons_iff, List.infix_cons_iff, or_iff_right noFront, or_iff_right noLetter]

/-- A bystander lies before a mark or behind it. -/
theorem infix_append_mark_iff {left text : Text} :
    '\\' :: word <:+: left ++ '\\' :: letter :: text ↔
      '\\' :: word <:+: left ∨ '\\' :: word <:+: text := by
  induction left with
  | nil =>
      rw [List.nil_append, bystander.infix_mark_iff mark noBackslash, List.infix_nil]
      simp
  | cons c left ih =>
      have front : '\\' :: word <+: c :: left ++ '\\' :: letter :: text ↔
          '\\' :: word <+: c :: left :=
        ⟨bystander.prefix_of_prefix_append_mark mark,
          fun front => front.trans (List.prefix_append _ _)⟩
      rw [List.cons_append, List.infix_cons_iff, ← List.cons_append, front, ih,
        List.infix_cons_iff, or_assoc]

end Inside

/-- A bystander at an environment lies in its body or behind it. -/
theorem infix_source_append_iff (bystander : IsBystander startsEnvironment ('\\' :: word))
    {name body rest : Text} (plain : '\\' ∉ name) :
    '\\' :: word <:+: Environment.source ⟨name, body⟩ ++ rest ↔
      '\\' :: word <:+: body ∨ '\\' :: word <:+: rest := by
  have parts : Environment.source ⟨name, body⟩ ++ rest =
      '\\' :: 'b' :: (Text.ofString "egin\x7b" ++ name ++ "\x7d" ++
        (body ++ '\\' :: 'e' :: (Text.ofString "nd\x7b" ++ name ++ "\x7d" ++ rest))) := by
    simp [Environment.source, Environment.opening, Environment.closing, Text.ofString]
  have noBegin : '\\' ∉ Text.ofString "egin\x7b" ++ name ++ "\x7d" := by
    simp [Text.ofString, plain]
  have noEnd : '\\' ∉ Text.ofString "nd\x7b" ++ name ++ "\x7d" := by
    simp [Text.ofString, plain]
  rw [parts, bystander.infix_mark_iff (by decide) (by decide),
    Text.infix_append_iff_of_head_not_mem noBegin,
    bystander.infix_append_mark_iff (by decide) (by decide),
    Text.infix_append_iff_of_head_not_mem noEnd]

end IsBystander

/-- Two texts that start with the same bystanders and have the same ones inside, of those that
start with a backslash. -/
structure SameBystanders (marks : Char → Bool) (before after : Text) : Prop where
  /-- The same bystanders stand in front. -/
  front : ∀ word, IsBystander marks word → (word <+: before ↔ word <+: after)
  /-- The same bystanders that start with a backslash stand anywhere. -/
  inside : ∀ word, IsBystander marks ('\\' :: word) →
    ('\\' :: word <:+: before ↔ '\\' :: word <:+: after)

namespace SameBystanders

variable {before after : Text}

theorem refl (marks : Char → Bool) (text : Text) : SameBystanders marks text text :=
  ⟨fun _ _ => Iff.rfl, fun _ _ => Iff.rfl⟩

theorem mono (fewer : ∀ c, marks c → marks' c) (same : SameBystanders marks before after) :
    SameBystanders marks' before after :=
  ⟨fun word bystander => same.front word (bystander.mono fewer),
    fun word bystander => same.inside word (bystander.mono fewer)⟩

theorem trans {last : Text} (first : SameBystanders marks before after)
    (second : SameBystanders marks after last) : SameBystanders marks before last :=
  ⟨fun word bystander => (first.front word bystander).trans (second.front word bystander),
    fun word bystander => (first.inside word bystander).trans (second.inside word bystander)⟩

theorem cons (c : Char) (same : SameBystanders marks before after) :
    SameBystanders marks (c :: before) (c :: after) := by
  have front : ∀ word, IsBystander marks word → (word <+: c :: before ↔ word <+: c :: after) := by
    intro word bystander
    cases word with
    | nil => simp
    | cons d word =>
        rw [List.cons_prefix_cons, List.cons_prefix_cons, same.front word bystander.tail]
  refine ⟨front, fun word bystander => ?_⟩
  rw [List.infix_cons_iff, List.infix_cons_iff, front _ bystander, same.inside word bystander]

theorem append (front : Text) (same : SameBystanders marks before after) :
    SameBystanders marks (front ++ before) (front ++ after) := by
  induction front with
  | nil => exact same
  | cons c front ih => exact ih.cons c

/-- Block markers around an environment, and another name for it, are out of the way of every
bystander. -/
theorem wrap {name name' : Text} (plain : '\\' ∉ name) (plain' : '\\' ∉ name') (body : Text)
    (same : SameBystanders startsEnvironment before after) :
    SameBystanders startsEnvironment (Environment.source ⟨name, body⟩ ++ before)
      (Delimiter.blockMarker ++ Environment.source ⟨name', body⟩ ++ Delimiter.blockMarker ++
        after) := by
  have noBackslash : '\\' ∉ Delimiter.blockMarker := by decide
  constructor
  · intro word bystander
    have noSource : word <+: Environment.source ⟨name, body⟩ ++ before → word = [] :=
      bystander.eq_nil_of_prefix_mark (by decide)
    have noMarker : word <+: Delimiter.blockMarker ++ Environment.source ⟨name', body⟩ ++
        Delimiter.blockMarker ++ after → word = [] :=
      Text.eq_nil_of_prefix_cons bystander.no_dollar
    exact Text.prefix_iff_of_eq_nil noSource noMarker
  · intro word bystander
    simp only [List.append_assoc]
    rw [bystander.infix_source_append_iff plain, Text.infix_append_iff_of_head_not_mem noBackslash,
      bystander.infix_source_append_iff plain', Text.infix_append_iff_of_head_not_mem noBackslash,
      same.inside word bystander]

theorem toDollars (text : Text) :
    SameBystanders startsDelimiter text (Delimiter.toDollars text) := by
  induction text using Delimiter.toDollars_induction with
  | nil => exact .refl _ []
  | last c => exact .refl _ [c]
  | delimiter letter text dollars delimiter ih =>
      rw [Delimiter.toDollars_delimiter delimiter]
      have mark : startsDelimiter letter := by simp [startsDelimiter, delimiter]
      have noLetter : '\\' ≠ letter := by
        rintro rfl
        simp [Delimiter.dollars?] at delimiter
      have noBackslash : '\\' ∉ dollars := by
        rcases Delimiter.eq_of_dollars? delimiter with rfl | rfl <;> decide
      constructor
      · intro word bystander
        have noDollars : word <+: dollars ++ Delimiter.toDollars text → word = [] := by
          rcases Delimiter.eq_of_dollars? delimiter with rfl | rfl <;>
            exact Text.eq_nil_of_prefix_cons bystander.no_dollar
        exact Text.prefix_iff_of_eq_nil (bystander.eq_nil_of_prefix_mark mark) noDollars
      · intro word bystander
        rw [bystander.infix_mark_iff mark noLetter,
          Text.infix_append_iff_of_head_not_mem noBackslash, ih.inside word bystander]
  | backslash letter text other ih =>
      rw [Delimiter.toDollars_backslash other]
      exact ih.cons '\\'
  | plain c letter text plain ih =>
      rw [Delimiter.toDollars_cons_of_ne plain]
      exact ih.cons c

theorem blockAligned (text : Text) :
    SameBystanders startsEnvironment text (Environment.blockAligned text) := by
  have plain : ∀ name ∈ Environment.alignedNames, '\\' ∉ name := by decide
  refine Environment.aligned.substitute_rel _ (.refl _ []) (fun c _ _ same => same.cons c) ?_ text
  rintro ⟨name, body⟩ before after ⟨text, rest, read⟩ same
  exact same.wrap (plain name (Environment.name_mem_of_read? read)) (by decide) body

theorem blockMatrices (text : Text) :
    SameBystanders startsEnvironment text (Matrix.blockMatrices text) := by
  refine Matrix.occurrences.substituteAt_rel _ (.refl _ []) (fun c _ _ same => same.cons c) ?_ text
  rintro offset ⟨opening, ⟨name, body⟩, closing⟩ before after occurs rewritten same
  have plain := (Matrix.names_plain name (Matrix.name_mem_of_occurs occurs)).2.1
  have wrapped := ((same.append (Matrix.Occurrence.behind ⟨opening, ⟨name, body⟩, closing⟩)).wrap
    plain plain body).append (Matrix.Occurrence.before ⟨opening, ⟨name, body⟩, closing⟩)
  split at rewritten
  · exact absurd rfl rewritten
  · rename_i bare
    rw [if_neg bare]
    simpa [Matrix.occurrences, Matrix.Occurrence.source, Matrix.Occurrence.displayed] using wrapped

/-- The four stages that write dollars pass over bystanders. -/
theorem dollars (text : Text) : SameBystanders startsMark text
    (Matrix.blockMatrices (Environment.blockAligned
      (Delimiter.dollarBlocks (Delimiter.dollarInline text)))) := by
  rw [Delimiter.dollarBlocks_dollarInline]
  have delimiters := (toDollars text).mono fun _ => startsMark_of_startsDelimiter
  have environments := ((blockAligned (Delimiter.toDollars text)).trans (blockMatrices _)).mono
    fun _ => startsMark_of_startsEnvironment
  exact delimiters.trans environments

end SameBystanders

theorem isBystander_delimiter {letter : Char} {dollars : Text}
    (delimiter : Delimiter.dollars? letter = some dollars) :
    IsBystander startsEnvironment ['\\', letter] := by
  have plain : letter ≠ '$' ∧ letter ≠ '\\' ∧ startsEnvironment letter = false := by
    rcases Delimiter.dollars?_eq_some_iff.mp delimiter with ⟨rfl | rfl, _⟩ | ⟨rfl | rfl, _⟩ <;>
      decide
  constructor
  case no_dollar => simp [plain.1.symm]
  case no_mark =>
    intro other mark inside
    cases inside.eq_of_length rfl
    rw [plain.2.2] at mark
    cases mark
  case no_backslash => simpa using plain.2.1

theorem isBystander_command :
    IsBystander startsMark ('\\' :: Text.ofString "displaystyle") where
  no_dollar := by decide
  no_mark letter mark inside := by
    rw [List.infix_cons_iff] at inside
    rcases inside with front | inside
    · obtain ⟨rest, whole⟩ := (List.cons_prefix_cons.mp front).2
      rw [(List.cons.inj whole).1] at mark
      exact absurd mark (by decide)
    · exact absurd (inside.subset List.mem_cons_self) (by decide)
  no_backslash := by decide

/-- The four stages that write dollars leave no delimiter. -/
theorem delimiter_absent {letter : Char} {dollars : Text}
    (delimiter : Delimiter.dollars? letter = some dollars) (text : Text) :
    ¬ ['\\', letter] <:+: Matrix.blockMatrices (Environment.blockAligned
      (Delimiter.dollarBlocks (Delimiter.dollarInline text))) := by
  have same := (SameBystanders.blockAligned (Delimiter.toDollars text)).trans (.blockMatrices _)
  rw [Delimiter.dollarBlocks_dollarInline, ← same.inside _ (isBystander_delimiter delimiter)]
  exact Delimiter.not_infix_toDollars delimiter text

end DollarMath
