import DollarMath.Markup.DisplayStyle
import DollarMath.Markup.Environment
import DollarMath.Proofs.Text.Blank

/-!
# Environments and commands that are rewritten

An environment is read wherever its source stands, whatever its body holds: a body that has the
closing word ends earlier.  So the aligned environments that are left behind are none at all, and
the same goes for display-style commands.
-/

namespace DollarMath
namespace Environment

theorem name_mem_of_read? {names : List Text} {text rest : Text} {environment : Environment}
    (read : read? names text = some (environment, rest)) : environment.name ∈ names := by
  obtain ⟨name, member, named⟩ := List.exists_of_findSome?_eq_some read
  simp only [readNamed?, Option.bind_eq_some_iff, Option.map_eq_some_iff, Prod.mk.injEq,
    Prod.exists] at named
  obtain ⟨_, _, _, _, _, rfl, _⟩ := named
  exact member

/-- An environment is read up to the first word that closes it. -/
theorem unclosed_of_read? {names : List Text} {text rest : Text} {environment : Environment}
    (read : read? names text = some (environment, rest)) :
    ¬ closing environment.name <:+: environment.body := by
  obtain ⟨name, _, named⟩ := List.exists_of_findSome?_eq_some read
  simp only [readNamed?, Option.bind_eq_some_iff, Option.map_eq_some_iff, Prod.mk.injEq,
    Prod.exists] at named
  obtain ⟨_, _, _, _, cut, rfl, _⟩ := named
  exact Text.not_infix_of_cut? (by simp [closing, Text.ofString]) cut

theorem read?_ne_none {names : List Text} (environment : Environment) (rest : Text)
    (member : environment.name ∈ names) : read? names (environment.source ++ rest) ≠ none := by
  intro none
  have named := List.findSome?_eq_none_iff.mp none environment.name member
  have closed : closing environment.name <:+:
      environment.body ++ closing environment.name ++ rest :=
    ⟨environment.body, rest, rfl⟩
  rw [readNamed?, source, List.append_assoc, List.append_assoc, Text.after?_append,
    Option.bind_some, Option.map_eq_none_iff, ← List.append_assoc] at named
  rw [← Text.isSome_cut?_iff, named] at closed
  simp at closed

theorem name_eq_of_prefix_opening {name name' : Text} (noClosing : '\x7d' ∉ name)
    (noClosing' : '\x7d' ∉ name') {rest : Text}
    (front : opening name <+: opening name' ++ rest) : name = name' := by
  obtain ⟨behind, same⟩ := front
  simp only [opening, List.append_assoc, List.append_cancel_left_eq] at same
  exact Text.eq_of_append_cons_eq noClosing noClosing' same

/-- What is read up to the first word that closes it is an environment. -/
theorem read?_source {names : List Text} {name body : Text}
    (plain : ∀ name ∈ names, '\x7d' ∉ name ∧ '\\' ∉ name) (member : name ∈ names)
    (unclosed : ¬ closing name <:+: body) (rest : Text) :
    read? names (source ⟨name, body⟩ ++ rest) = some (⟨name, body⟩, rest) := by
  have letters : closing name = '\\' :: (Text.ofString "end\x7b" ++ name ++ "\x7d") := rfl
  have cut : Text.cut? (closing name) (body ++ (closing name ++ rest)) = some (body, rest) := by
    rw [letters] at unclosed ⊢
    refine Text.cut?_append ?_ unclosed
    simpa [Text.ofString] using (plain name member).2
  have named : readNamed? name (source ⟨name, body⟩ ++ rest) = some (⟨name, body⟩, rest) := by
    rw [readNamed?, source, List.append_assoc, List.append_assoc, Text.after?_append,
      Option.bind_some, cut]
    rfl
  have other : ∀ name' ∈ names, name' ≠ name →
      readNamed? name' (source ⟨name, body⟩ ++ rest) = none := by
    intro name' member' apart
    rw [readNamed?, Option.bind_eq_none_iff]
    intro inside opened
    have front : opening name' <+: opening name ++ (body ++ closing name ++ rest) :=
      ⟨inside, by rw [← Text.after?_eq_some_iff.mp opened, source]; simp⟩
    have noClosing := (plain name' member').1
    exact absurd (name_eq_of_prefix_opening noClosing (plain name member).1 front) apart
  rw [read?]
  clear plain
  induction names with
  | nil => simp at member
  | cons first names ih =>
      rw [List.findSome?_cons]
      by_cases same : first = name
      · rw [same, named]
      · rw [other first List.mem_cons_self same]
        refine ih ?_ fun name' member' => other name' (List.mem_cons_of_mem _ member')
        exact (List.mem_cons.mp member).resolve_left (Ne.symm same)

/-- A command stands at an end of an environment, in its body or behind it. -/
theorem infix_source_append {letters name body behind : Text} (single : '\\' ∉ letters)
    (plain : '\\' ∉ name) (inside : '\\' :: letters <:+: source ⟨name, body⟩ ++ behind) :
    '\\' :: letters <+: source ⟨name, body⟩ ++ behind ∨ '\\' :: letters <:+: body ∨
      '\\' :: letters <+: closing name ++ behind ∨ '\\' :: letters <:+: behind := by
  have opened : source ⟨name, body⟩ ++ behind =
      '\\' :: (Text.ofString "begin\x7b" ++ name ++ "\x7d" ++
        (body ++ (closing name ++ behind))) := by
    simp [source, opening, Text.ofString]
  have closed : closing name ++ behind =
      '\\' :: (Text.ofString "end\x7b" ++ name ++ "\x7d" ++ behind) := rfl
  have noBegin : '\\' ∉ Text.ofString "begin\x7b" ++ name ++ "\x7d" := by
    simp [Text.ofString, plain]
  have noEnd : '\\' ∉ Text.ofString "end\x7b" ++ name ++ "\x7d" := by
    simp [Text.ofString, plain]
  rw [opened, List.infix_cons_iff, ← opened] at inside
  rcases inside with front | inside
  · exact .inl front
  · rw [Text.infix_append_iff_of_head_not_mem noBegin, closed,
      Text.infix_append_cons_iff (by simpa using single) (by simp)] at inside
    rcases inside with inside | inside
    · exact .inr (.inl inside)
    · rw [List.infix_cons_iff, ← closed, Text.infix_append_iff_of_head_not_mem noEnd] at inside
      exact .inr (.inr inside)

theorem begin_prefix_opening (name : Text) : Text.ofString "\\begin" <+: opening name :=
  ⟨"\x7b" ++ name ++ "\x7d", by simp [opening, Text.ofString]⟩

theorem opening_prefix_source (environment : Environment) :
    opening environment.name <+: environment.source := by
  rw [source, List.append_assoc]
  exact List.prefix_append _ _

theorem begin_prefix_source (environment : Environment) :
    Text.ofString "\\begin" <+: environment.source :=
  (begin_prefix_opening environment.name).trans (opening_prefix_source environment)

theorem getLast?_source (environment : Environment) :
    environment.source.getLast? = some '\x7d' := by
  rw [source, closing, ← List.append_assoc]
  exact List.getLast?_concat

theorem begin_prefix_of_read? {names : List Text} {text rest : Text} {environment : Environment}
    (read : read? names text = some (environment, rest)) :
    Text.ofString "\\begin" <+: text := by
  rw [eq_of_read? read]
  exact (begin_prefix_source environment).trans (List.prefix_append _ _)

theorem read?_eq_none {names : List Text} {text : Text}
    (absent : ∀ name ∈ names, ¬ opening name <+: text) : read? names text = none := by
  cases read : read? names text with
  | none => rfl
  | some found =>
      have front : found.1.source <+: text := ⟨found.2, (eq_of_read? read).symm⟩
      exact absurd ((opening_prefix_source found.1).trans front)
        (absent _ (name_mem_of_read? read))

/-- An opening word is not cut apart by the backslash of another word. -/
theorem opening_prefix_of_append {name text rest : Text} (plain : '\\' ∉ name)
    (nonempty : text ≠ []) (front : opening name <+: text ++ '\\' :: rest) :
    opening name <+: text := by
  refine Text.prefix_of_prefix_append_cons ?_ nonempty front
  simp [opening, Text.ofString, plain]

theorem aligned_absent_iff {text : Text} :
    aligned.Absent text ↔
      ∀ environment : Environment, environment.name ∈ alignedNames →
        ¬ environment.source <:+: text :=
  aligned.absent_iff name_mem_of_read? read?_ne_none

theorem weigh_aligned_lt (environment : Environment) (occurs : aligned.Occurs environment) :
    Text.weigh Text.markWeight (aligned.source environment) <
      Text.weigh Text.markWeight (Delimiter.blockMarker ++
        source ⟨alignedBlockName, environment.body⟩ ++ Delimiter.blockMarker) := by
  obtain ⟨text, rest, read⟩ := occurs
  have names : ∀ name ∈ alignedNames,
      Text.weigh Text.markWeight (opening name) = -1 ∧
        Text.weigh Text.markWeight (closing name) = -11 := by decide
  have block : Text.weigh Text.markWeight (opening alignedBlockName) = -11 ∧
      Text.weigh Text.markWeight (closing alignedBlockName) = -21 := by decide
  have marker : Text.weigh Text.markWeight Delimiter.blockMarker = 20 := by decide
  obtain ⟨opened, closed⟩ := names environment.name (name_mem_of_read? read)
  simp only [aligned, source, Text.weigh_append, opened, closed, block.1, block.2, marker]
  omega

theorem raises_blockAligned : Text.Raises Text.markWeight blockAligned :=
  aligned.raises_substitute weigh_aligned_lt

theorem blockAligned_eq_self_iff {text : Text} :
    blockAligned text = text ↔
      ∀ environment : Environment, environment.name ∈ alignedNames →
        ¬ environment.source <:+: text := by
  rw [blockAligned, aligned.substitute_eq_self_iff weigh_aligned_lt, aligned_absent_iff]

theorem blockAligned_of_no_begin {text : Text} (noBegin : ¬ Text.ofString "\\begin" <:+: text) :
    blockAligned text = text := by
  rw [blockAligned_eq_self_iff]
  exact fun environment _ inside => noBegin ((begin_prefix_source environment).isInfix.trans inside)

end Environment

namespace DisplayStyle

theorem command_eq : command = '\\' :: Text.ofString "displaystyle" := rfl

theorem absent_iff {text : Text} : occurrences.Absent text ↔ ¬ command <:+: text := by
  have complete : ∀ (blanks rest : Text), True →
      occurrences.read? (command ++ blanks ++ rest) ≠ none := by
    intro blanks rest _
    rw [List.append_assoc]
    simp [occurrences]
  rw [occurrences.absent_iff (fun _ => trivial) complete]
  constructor
  · intro absent inside
    exact absent [] trivial (by simpa [occurrences] using inside)
  · intro absent blanks _ inside
    exact absent ((List.prefix_append command blanks).isInfix.trans inside)

theorem weigh_command_lt (blanks : Text) (blank : Text.isBlankText blanks) :
    Text.weigh Text.markWeight (command ++ blanks) < Text.weigh Text.markWeight [] := by
  have light : Text.weigh Text.markWeight command = -9 := by decide
  have lighter : Text.weigh Text.markWeight blanks ≤ 0 := by
    rcases (Text.Thins.of_isBlankText blank).eq_or_markWeight_lt with empty | lighter
    · simp [← empty]
    · rw [Text.weigh_nil] at lighter
      omega
  rw [Text.weigh_append, light, Text.weigh_nil]
  omega

theorem weigh_lt_of_occurs (blanks : Text) (occurs : occurrences.Occurs blanks) :
    Text.weigh Text.markWeight (occurrences.source blanks) < Text.weigh Text.markWeight [] := by
  obtain ⟨text, rest, read⟩ := occurs
  simp only [occurrences, Option.map_eq_some_iff, Prod.mk.injEq] at read
  obtain ⟨behind, _, rfl, _⟩ := read
  exact weigh_command_lt _ (Text.isBlankText_takeWhile behind)

theorem raises_dropCommands : Text.Raises Text.markWeight dropCommands :=
  occurrences.raises_substitute weigh_lt_of_occurs

theorem dropCommands_eq_self_iff {text : Text} :
    dropCommands text = text ↔ ¬ command <:+: text := by
  rw [dropCommands, occurrences.substitute_eq_self_iff weigh_lt_of_occurs, absent_iff]

end DisplayStyle
end DollarMath
