import DollarMath.Markup.Delimiter
import DollarMath.Proofs.Text.Flush
import DollarMath.Proofs.Text.Thinning

/-!
# Delimiters in one pass

The four delimiters are replaced one after another, and no replacement makes or breaks a
delimiter of another kind.  So a single pass over the text does the same, which is the form in
which properties of the replaced text are read off.
-/

namespace DollarMath

namespace Pattern

theorem word_absent_iff {letters text : Text} (nonempty : letters ≠ []) :
    (word letters nonempty).Absent text ↔ ¬ letters <:+: text := by
  have complete : ∀ (occurrence : Unit) (rest : Text), True →
      (word letters nonempty).read? (letters ++ rest) ≠ none := by
    intro _ rest _
    simp [word]
  rw [(word letters nonempty).absent_iff (fun _ => trivial) complete]
  exact ⟨fun absent => absent () trivial, fun absent _ _ => absent⟩

end Pattern

namespace Delimiter

/-- The dollars for the delimiter that a backslash makes with this letter. -/
def dollars? (letter : Char) : Option Text :=
  if letter = '(' ∨ letter = ')' then some ['$']
  else if letter = '[' ∨ letter = ']' then some ['$', '$']
  else none

theorem dollars?_eq_some_iff {letter : Char} {dollars : Text} :
    dollars? letter = some dollars ↔
      (letter = '(' ∨ letter = ')') ∧ dollars = ['$'] ∨
        (letter = '[' ∨ letter = ']') ∧ dollars = ['$', '$'] := by
  unfold dollars?
  grind

theorem dollars?_eq_none_iff {letter : Char} :
    dollars? letter = none ↔ letter ≠ '(' ∧ letter ≠ ')' ∧ letter ≠ '[' ∧ letter ≠ ']' := by
  unfold dollars?
  grind

theorem eq_of_dollars? {letter : Char} {dollars : Text}
    (delimiter : dollars? letter = some dollars) : dollars = ['$'] ∨ dollars = ['$', '$'] :=
  (dollars?_eq_some_iff.mp delimiter).imp And.right And.right

/-- The text with the dollars in place of each backslash that the letter follows. -/
def replace (letter : Char) (dollars : Text) : Text → Text :=
  (Pattern.word ['\\', letter] (by simp)).substitute fun _ => dollars

theorem dollarInline_eq_replace (text : Text) :
    dollarInline text = replace ')' inlineMarker (replace '(' inlineMarker text) := rfl

theorem dollarBlocks_eq_replace (text : Text) :
    dollarBlocks text = replace ']' blockMarker (replace '[' blockMarker text) := rfl

section Replace

variable {letter : Char} {dollars : Text}

@[simp]
theorem replace_nil : replace letter dollars [] = [] := by
  rw [replace, Pattern.substitute_nil]

@[simp]
theorem replace_delimiter (text : Text) :
    replace letter dollars ('\\' :: letter :: text) = dollars ++ replace letter dollars text := by
  have read : (Pattern.word ['\\', letter] (by simp)).read? ('\\' :: letter :: text) =
      some ((), text) := by
    simp [Pattern.word, Text.after?]
  exact Pattern.substitute_of_read? _ _ read

theorem replace_cons_of_absent {c : Char} {text : Text}
    (other : ¬ ['\\', letter] <+: c :: text) :
    replace letter dollars (c :: text) = c :: replace letter dollars text := by
  have absent : (Pattern.word ['\\', letter] (by simp)).read? (c :: text) = none := by
    simp [Pattern.word, Text.after?_eq_none_iff.mpr other]
  exact Pattern.substitute_cons _ _ absent

theorem replace_cons_of_ne {c : Char} (plain : c ≠ '\\') (text : Text) :
    replace letter dollars (c :: text) = c :: replace letter dollars text := by
  apply replace_cons_of_absent
  simp [List.cons_prefix_cons, plain.symm]

theorem replace_backslash {text : Text} (other : ∀ rest, text ≠ letter :: rest) :
    replace letter dollars ('\\' :: text) = '\\' :: replace letter dollars text := by
  apply replace_cons_of_absent
  rintro ⟨rest, whole⟩
  simp only [List.cons_append, List.nil_append, List.cons.injEq, true_and] at whole
  exact other rest whole.symm

@[simp]
theorem replace_singleton (c : Char) : replace letter dollars [c] = [c] := by
  by_cases backslash : c = '\\'
  · subst backslash
    rw [replace_backslash (by simp), replace_nil]
  · rw [replace_cons_of_ne backslash, replace_nil]

theorem replace_ne_cons {c : Char} (delimiter : dollars? letter = some dollars) (noDollar : c ≠ '$')
    {text : Text} (other : ∀ rest, text ≠ c :: rest) (rest : Text) :
    replace letter dollars text ≠ c :: rest := by
  cases text with
  | nil => simp
  | cons d text =>
      intro replaced
      by_cases front : ['\\', letter] <+: d :: text
      · obtain ⟨behind, whole⟩ := front
        rw [← whole, List.cons_append, List.cons_append, List.nil_append,
          replace_delimiter] at replaced
        rcases eq_of_dollars? delimiter with rfl | rfl <;>
          exact noDollar (List.cons.inj replaced).1.symm
      · rw [replace_cons_of_absent front, List.cons.injEq] at replaced
        exact other text (by rw [replaced.1])

theorem weigh_delimiter_lt (delimiter : dollars? letter = some dollars) (occurrence : Unit) :
    Text.weigh Text.markWeight ((Pattern.word ['\\', letter] (by simp)).source occurrence) <
      Text.weigh Text.markWeight dollars := by
  change Text.weigh Text.markWeight ['\\', letter] < _
  rcases dollars?_eq_some_iff.mp delimiter with ⟨rfl | rfl, rfl⟩ | ⟨rfl | rfl, rfl⟩ <;> decide

theorem raises_replace (delimiter : dollars? letter = some dollars) :
    Text.Raises Text.markWeight (replace letter dollars) :=
  Pattern.raises_substitute _ fun occurrence _ => weigh_delimiter_lt delimiter occurrence

theorem replace_eq_self_iff (delimiter : dollars? letter = some dollars) {text : Text} :
    replace letter dollars text = text ↔ ¬ ['\\', letter] <:+: text := by
  rw [replace, ← Pattern.word_absent_iff (by simp)]
  exact Pattern.substitute_eq_self_iff _ fun occurrence _ => weigh_delimiter_lt delimiter occurrence

end Replace

section Stages

theorem raises_dollarInline : Text.Raises Text.markWeight dollarInline :=
  (raises_replace rfl).comp (raises_replace rfl)

theorem raises_dollarBlocks : Text.Raises Text.markWeight dollarBlocks :=
  (raises_replace rfl).comp (raises_replace rfl)

theorem dollarInline_eq_self_iff {text : Text} :
    dollarInline text = text ↔ ¬ ['\\', '('] <:+: text ∧ ¬ ['\\', ')'] <:+: text := by
  rw [dollarInline_eq_replace, (raises_replace rfl).comp_eq_self_iff (raises_replace rfl),
    replace_eq_self_iff rfl, replace_eq_self_iff rfl]

theorem dollarBlocks_eq_self_iff {text : Text} :
    dollarBlocks text = text ↔ ¬ ['\\', '['] <:+: text ∧ ¬ ['\\', ']'] <:+: text := by
  rw [dollarBlocks_eq_replace, (raises_replace rfl).comp_eq_self_iff (raises_replace rfl),
    replace_eq_self_iff rfl, replace_eq_self_iff rfl]

end Stages

/-- Replaces the four delimiters in a single pass. -/
def toDollars : Text → Text
  | [] => []
  | [c] => [c]
  | c :: letter :: text =>
      if c = '\\' then
        match dollars? letter with
        | some dollars => dollars ++ toDollars text
        | none => c :: toDollars (letter :: text)
      else c :: toDollars (letter :: text)

@[simp]
theorem toDollars_nil : toDollars [] = [] := rfl

@[simp]
theorem toDollars_singleton (c : Char) : toDollars [c] = [c] := rfl

theorem toDollars_cons_of_ne {c : Char} (plain : c ≠ '\\') (text : Text) :
    toDollars (c :: text) = c :: toDollars text := by
  cases text with
  | nil => rfl
  | cons letter text => rw [toDollars, if_neg plain]

theorem toDollars_delimiter {letter : Char} {dollars : Text}
    (delimiter : dollars? letter = some dollars) (text : Text) :
    toDollars ('\\' :: letter :: text) = dollars ++ toDollars text := by
  rw [toDollars, if_pos rfl, delimiter]

theorem toDollars_backslash {letter : Char} (other : dollars? letter = none) (text : Text) :
    toDollars ('\\' :: letter :: text) = '\\' :: toDollars (letter :: text) := by
  rw [toDollars, if_pos rfl, other]

/-- Induction along the pass: the text is at its end, at a delimiter, at a backslash that starts
none or at another character. -/
theorem toDollars_induction {motive : Text → Prop} (nil : motive []) (last : ∀ c, motive [c])
    (delimiter : ∀ letter text dollars, dollars? letter = some dollars → motive text →
      motive ('\\' :: letter :: text))
    (backslash : ∀ letter text, dollars? letter = none → motive (letter :: text) →
      motive ('\\' :: letter :: text))
    (plain : ∀ c letter text, c ≠ '\\' → motive (letter :: text) → motive (c :: letter :: text))
    (text : Text) : motive text := by
  fun_induction toDollars text with
  | case1 => exact nil
  | case2 c => exact last c
  | case3 letter text dollars found ih => exact delimiter letter text dollars found ih
  | case4 letter text other ih => exact backslash letter text other ih
  | case5 c letter text other ih => exact plain c letter text other ih

/-- The two delimiter stages are one pass over the text. -/
theorem dollarBlocks_dollarInline (text : Text) :
    dollarBlocks (dollarInline text) = toDollars text := by
  rw [dollarBlocks_eq_replace, dollarInline_eq_replace]
  induction text using toDollars_induction with
  | nil => simp
  | last c => simp
  | delimiter letter text dollars delimiter ih =>
      rw [toDollars_delimiter delimiter]
      rcases dollars?_eq_some_iff.mp delimiter with ⟨rfl | rfl, rfl⟩ | ⟨rfl | rfl, rfl⟩
      all_goals
        simp [replace_backslash, replace_cons_of_ne, inlineMarker, blockMarker, Text.ofString,
          ← ih]
  | backslash letter text other ih =>
      rw [toDollars_backslash other]
      obtain ⟨noOpen, noClose, noOpenBlock, noCloseBlock⟩ := dollars?_eq_none_iff.mp other
      have close : ∀ rest, replace '(' inlineMarker (letter :: text) ≠ ')' :: rest :=
        replace_ne_cons rfl (by simp) (by simp [noClose])
      have openBlock : ∀ rest,
          replace ')' inlineMarker (replace '(' inlineMarker (letter :: text)) ≠ '[' :: rest :=
        replace_ne_cons rfl (by simp) (replace_ne_cons rfl (by simp) (by simp [noOpenBlock]))
      have closeBlock : ∀ rest, replace '[' blockMarker
          (replace ')' inlineMarker (replace '(' inlineMarker (letter :: text))) ≠ ']' :: rest :=
        replace_ne_cons rfl (by simp) (replace_ne_cons rfl (by simp)
          (replace_ne_cons rfl (by simp) (by simp [noCloseBlock])))
      rw [replace_backslash (by simp [noOpen]), replace_backslash close,
        replace_backslash openBlock, replace_backslash closeBlock, ih]
  | plain c letter text plain ih =>
      simp only [toDollars_cons_of_ne plain, replace_cons_of_ne plain, ih]

theorem toDollars_append {left : Text} (right : Text) (unescaped : left.getLast? ≠ some '\\') :
    toDollars (left ++ right) = toDollars left ++ toDollars right := by
  induction left using toDollars_induction with
  | nil => rfl
  | last c =>
      rw [List.singleton_append, toDollars_cons_of_ne (by simpa using unescaped)]
      rfl
  | delimiter letter text dollars delimiter ih =>
      have later : text.getLast? ≠ some '\\' := by
        intro last
        simp [List.getLast?_cons, last] at unescaped
      rw [toDollars_delimiter delimiter, List.append_assoc, List.cons_append, List.cons_append,
        toDollars_delimiter delimiter, ih later]
  | backslash letter text other ih =>
      rw [List.getLast?_cons_cons] at unescaped
      rw [toDollars_backslash other, List.cons_append, List.cons_append, toDollars_backslash other,
        ← List.cons_append, ih unescaped, List.cons_append]
  | plain c letter text plain ih =>
      rw [List.getLast?_cons_cons] at unescaped
      rw [toDollars_cons_of_ne plain, List.cons_append, toDollars_cons_of_ne plain, ih unescaped,
        List.cons_append]

/-- What stands before and behind a character that is in no delimiter is replaced apart. -/
theorem toDollars_append_cons (left right : Text) {c : Char} (noBackslash : c ≠ '\\')
    (other : dollars? c = none) :
    toDollars (left ++ c :: right) = toDollars left ++ c :: toDollars right := by
  induction left using toDollars_induction with
  | nil => exact toDollars_cons_of_ne noBackslash right
  | last d =>
      by_cases backslash : d = '\\'
      · subst backslash
        rw [List.singleton_append, toDollars_backslash other, toDollars_cons_of_ne noBackslash]
        rfl
      · rw [List.singleton_append, toDollars_cons_of_ne backslash, toDollars_cons_of_ne noBackslash]
        rfl
  | delimiter letter text dollars delimiter ih =>
      rw [toDollars_delimiter delimiter, List.append_assoc, List.cons_append, List.cons_append,
        toDollars_delimiter delimiter, ih]
  | backslash letter text none ih =>
      rw [toDollars_backslash none, List.cons_append, List.cons_append, toDollars_backslash none,
        ← List.cons_append, ih, List.cons_append]
  | plain d letter text plain ih =>
      rw [toDollars_cons_of_ne plain, List.cons_append, toDollars_cons_of_ne plain, ih,
        List.cons_append]

/-- The delimiters that are replaced. -/
def words : List Text :=
  ["\\(", "\\)", "\\[", "\\]"]

theorem exists_of_mem_words {word : Text} (member : word ∈ words) :
    ∃ letter dollars, word = ['\\', letter] ∧ dollars? letter = some dollars := by
  simp only [words, List.mem_cons, List.not_mem_nil, or_false] at member
  rcases member with rfl | rfl | rfl | rfl <;> exact ⟨_, _, rfl, rfl⟩

theorem toDollars_eq_self {text : Text} (absent : ∀ word ∈ words, ¬ word <:+: text) :
    toDollars text = text := by
  induction text using toDollars_induction with
  | nil => rfl
  | last c => rfl
  | delimiter letter text dollars delimiter ih =>
      have front : ['\\', letter] <:+: '\\' :: letter :: text := ⟨[], text, rfl⟩
      refine absurd front (absent ['\\', letter] ?_)
      rcases dollars?_eq_some_iff.mp delimiter with ⟨rfl | rfl, _⟩ | ⟨rfl | rfl, _⟩ <;>
        simp [words, Text.ofString]
  | backslash letter text other ih =>
      rw [toDollars_backslash other,
        ih fun word member inside => absent word member (List.infix_cons inside)]
  | plain c letter text plain ih =>
      rw [toDollars_cons_of_ne plain,
        ih fun word member inside => absent word member (List.infix_cons inside)]

theorem toDollars_append_of_absent {left : Text} (absent : ∀ word ∈ words, ¬ word <:+: left)
    (unescaped : left.getLast? ≠ some '\\') (right : Text) :
    toDollars (left ++ right) = left ++ toDollars right := by
  rw [toDollars_append right unescaped, toDollars_eq_self absent]

/-- A word without dollars that is found when the delimiters are replaced was there before. -/
theorem infix_of_infix_toDollars {word text : Text} (noDollar : '$' ∉ word) :
    (word <+: toDollars text → word <+: text) ∧ (word <:+: toDollars text → word <:+: text) := by
  induction text using toDollars_induction generalizing word with
  | nil => exact ⟨id, id⟩
  | last c => exact ⟨id, id⟩
  | delimiter letter text dollars delimiter ih =>
      rw [toDollars_delimiter delimiter]
      cases word with
      | nil => simp
      | cons d word =>
          have front : ¬ d :: word <+: dollars ++ toDollars text := by
            intro front
            rcases eq_of_dollars? delimiter with rfl | rfl <;>
              simp [List.cons_prefix_cons] at front <;> simp [front.1] at noDollar
          refine ⟨fun front' => absurd front' front, fun inside => ?_⟩
          have foreign : d ∉ dollars := by
            rintro member
            rcases eq_of_dollars? delimiter with rfl | rfl <;> simp at member <;>
              simp [member] at noDollar
          rw [Text.infix_append_iff_of_head_not_mem foreign] at inside
          exact ((ih noDollar).2 inside).trans ⟨['\\', letter], [], by simp⟩
  | backslash letter text other ih =>
      rw [toDollars_backslash other]
      refine Text.infix_cons_imp '\\' ?_ (ih noDollar).2
      rintro later rfl
      exact (ih (fun member => noDollar (List.mem_cons_of_mem _ member))).1
  | plain c letter text plain ih =>
      rw [toDollars_cons_of_ne plain]
      refine Text.infix_cons_imp c ?_ (ih noDollar).2
      rintro later rfl
      exact (ih (fun member => noDollar (List.mem_cons_of_mem _ member))).1

/-- The first character stays the first, or a dollar takes its place. -/
theorem head?_toDollars (text : Text) :
    (toDollars text).head? = some '$' ∨ (toDollars text).head? = text.head? := by
  fun_cases toDollars text with
  | case1 => exact .inr rfl
  | case2 => exact .inr rfl
  | case3 letter text dollars delimiter =>
      rcases eq_of_dollars? delimiter with rfl | rfl <;> exact .inl rfl
  | case4 => exact .inr rfl
  | case5 => exact .inr rfl

/-- No delimiter is left. -/
theorem not_infix_toDollars {letter : Char} {dollars : Text}
    (delimiter : dollars? letter = some dollars) (text : Text) :
    ¬ ['\\', letter] <:+: toDollars text := by
  induction text using toDollars_induction with
  | nil => simp
  | last c => exact fun inside => absurd inside.length_le (by simp)
  | delimiter other text dollars' delimiter' ih =>
      rw [toDollars_delimiter delimiter']
      have noBackslash : '\\' ∉ dollars' := by
        rcases eq_of_dollars? delimiter' with rfl | rfl <;> decide
      rwa [Text.infix_append_iff_of_head_not_mem noBackslash]
  | backslash other text none ih =>
      rw [toDollars_backslash none, List.infix_cons_iff, List.cons_prefix_cons, not_or]
      refine ⟨fun front => ?_, ih⟩
      obtain ⟨rest, whole⟩ := front.2
      rcases head?_toDollars (other :: text) with dollar | same
      · rw [← whole, List.singleton_append, List.head?_cons, Option.some.injEq] at dollar
        simp [dollar, dollars?] at delimiter
      · rw [← whole, List.singleton_append, List.head?_cons, List.head?_cons,
          Option.some.injEq] at same
        rw [same, none] at delimiter
        cases delimiter
  | plain c other text plain ih =>
      rw [toDollars_cons_of_ne plain, List.infix_cons_iff, List.cons_prefix_cons, not_or]
      exact ⟨fun front => plain front.1.symm, ih⟩

theorem toDollars_ne_nil {text : Text} (nonempty : text ≠ []) : toDollars text ≠ [] := by
  fun_cases toDollars text with
  | case1 => exact absurd rfl nonempty
  | case2 => simp
  | case3 letter text dollars delimiter =>
      rcases eq_of_dollars? delimiter with rfl | rfl <;> simp
  | case4 => simp
  | case5 => simp

theorem getLast?_toDollars (text : Text) :
    (toDollars text).getLast? = some '$' ∨ (toDollars text).getLast? = text.getLast? := by
  induction text using toDollars_induction with
  | nil => exact .inr rfl
  | last d => exact .inr rfl
  | delimiter letter text dollars delimiter ih =>
      rw [toDollars_delimiter delimiter]
      by_cases empty : text = []
      · left
        rcases eq_of_dollars? delimiter with rfl | rfl <;> simp [empty]
      · have behind := toDollars_ne_nil empty
        rw [List.getLast?_append_of_ne_nil _ behind]
        simpa [List.getLast?_cons_cons, List.getLast?_cons_of_ne_nil, empty] using ih
  | backslash letter text other ih =>
      rw [toDollars_backslash other,
        List.getLast?_cons_of_ne_nil (toDollars_ne_nil (List.cons_ne_nil letter text)),
        List.getLast?_cons_cons]
      exact ih
  | plain c letter text plain ih =>
      rw [toDollars_cons_of_ne plain,
        List.getLast?_cons_of_ne_nil (toDollars_ne_nil (List.cons_ne_nil letter text)),
        List.getLast?_cons_cons]
      exact ih

theorem isFlush_toDollars {text : Text} (flush : Text.IsFlush text) :
    Text.IsFlush (toDollars text) := by
  have dollar : Text.isBlank '$' = false := by decide
  refine .of_ends (toDollars_ne_nil flush.ne_nil) ?_ ?_
  · intro c first
    rcases head?_toDollars text with new | same
    · rw [new, Option.some.injEq] at first
      rwa [← first]
    · exact flush.isBlank_head (same ▸ first)
  · intro c last
    rcases getLast?_toDollars text with new | same
    · rw [new, Option.some.injEq] at last
      rwa [← last]
    · exact flush.isBlank_getLast (same ▸ last)

section Order

variable {letter letter' : Char} {dollars dollars' : Text}

theorem ne_backslash_of_dollars? (delimiter : dollars? letter = some dollars) : letter ≠ '\\' := by
  rintro rfl
  cases delimiter

theorem replace_other {other : Char} (noBackslash : other ≠ '\\') (different : other ≠ letter)
    (text : Text) :
    replace letter dollars ('\\' :: other :: text) =
      '\\' :: other :: replace letter dollars text := by
  rw [replace_backslash (by simp [different]), replace_cons_of_ne noBackslash]

theorem replace_dollars_append (delimiter : dollars? letter = some dollars) (text : Text) :
    replace letter' dollars' (dollars ++ text) = dollars ++ replace letter' dollars' text := by
  rcases eq_of_dollars? delimiter with rfl | rfl <;> simp [replace_cons_of_ne]

/-- Two delimiters are replaced in either order. -/
theorem replace_comm (delimiter : dollars? letter = some dollars)
    (delimiter' : dollars? letter' = some dollars') (different : letter ≠ letter') (text : Text) :
    replace letter dollars (replace letter' dollars' text) =
      replace letter' dollars' (replace letter dollars text) := by
  have noDollar : ∀ {letter : Char} {dollars : Text}, dollars? letter = some dollars →
      letter ≠ '$' := by
    rintro _ _ delimiter rfl
    cases delimiter
  induction text using toDollars_induction with
  | nil => simp
  | last c => simp
  | delimiter other text _ found ih =>
      have noBackslash := ne_backslash_of_dollars? found
      by_cases first : other = letter
      · subst first
        rw [replace_other noBackslash different, replace_delimiter, replace_delimiter,
          replace_dollars_append delimiter, ih]
      · by_cases second : other = letter'
        · subst second
          rw [replace_other noBackslash first, replace_delimiter, replace_delimiter,
            replace_dollars_append delimiter', ih]
        · rw [replace_other noBackslash first, replace_other noBackslash second,
            replace_other noBackslash first, replace_other noBackslash second, ih]
  | backslash other text none ih =>
      have first : other ≠ letter := by
        rintro rfl
        cases none.symm.trans delimiter
      have second : other ≠ letter' := by
        rintro rfl
        cases none.symm.trans delimiter'
      have front : ∀ rest, replace letter' dollars' (other :: text) ≠ letter :: rest :=
        replace_ne_cons delimiter' (noDollar delimiter) (by simp [first])
      have front' : ∀ rest, replace letter dollars (other :: text) ≠ letter' :: rest :=
        replace_ne_cons delimiter (noDollar delimiter') (by simp [second])
      rw [replace_backslash (by simp [second]), replace_backslash front,
        replace_backslash (by simp [first]), replace_backslash front', ih]
  | plain c other text plain ih =>
      simp only [replace_cons_of_ne plain, ih]

theorem dollarInline_dollarBlocks (text : Text) :
    dollarInline (dollarBlocks text) = dollarBlocks (dollarInline text) := by
  have order : ∀ letter letter', dollars? letter = some inlineMarker →
      dollars? letter' = some blockMarker → ∀ text,
        replace letter inlineMarker (replace letter' blockMarker text) =
          replace letter' blockMarker (replace letter inlineMarker text) := by
    intro letter letter' inline block
    refine replace_comm inline block ?_
    rintro rfl
    exact absurd (inline.symm.trans block) (by decide)
  simp only [dollarInline_eq_replace, dollarBlocks_eq_replace]
  rw [order '(' ']' rfl rfl, order '(' '[' rfl rfl, order ')' ']' rfl rfl, order ')' '[' rfl rfl]

/-- The delimiters of formulas in the sentence and those of displayed ones may be replaced in either
order or in one pass, and no delimiter is left. -/
theorem delimiters_are_replaced_at_once (text : Text) :
    dollarBlocks (dollarInline text) = toDollars text ∧
      dollarInline (dollarBlocks text) = toDollars text ∧
      ∀ word ∈ words, ¬ word <:+: toDollars text := by
  refine ⟨dollarBlocks_dollarInline text, ?_, ?_⟩
  · rw [dollarInline_dollarBlocks, dollarBlocks_dollarInline]
  · intro word member
    obtain ⟨letter, dollars, rfl, delimiter⟩ := exists_of_mem_words member
    exact not_infix_toDollars delimiter text

/-- Only the backslash next to a bracket belongs to the delimiter. -/
example : toDollars "\\\\\\(x\\\\]" = Text.ofString "\\\\$x\\$$" := by decide

end Order

end Delimiter
end DollarMath
