import DollarMath.Proofs.Markup.Environment

/-!
# Aligned environments in running text

A text in which prose and aligned environments take turns is read passage by passage.  No
environment starts in the prose, not even across its end, since what follows it starts with a
backslash; an environment ends at the first word that closes its own name, whatever other words
stand in its body.  So each environment is rewritten by itself.
-/

namespace DollarMath

/-- Prose with an environment behind it. -/
structure Passage where
  /-- The text before the environment. -/
  prose : Text
  /-- The environment. -/
  environment : Environment
  deriving DecidableEq, Repr

namespace Passage

open Environment

/-- Passages behind one another, with their environments written by `write`. -/
def text (write : Environment → Text) (passages : List Passage) : Text :=
  passages.flatMap fun passage => passage.prose ++ write passage.environment

/-- An aligned environment that is closed by its own closing word alone, behind prose in which no
aligned environment is opened. -/
structure IsAligned (passage : Passage) : Prop where
  /-- The environment is one of those that LaTeX aligns. -/
  name_mem : passage.environment.name ∈ alignedNames
  /-- The body does not close the environment. -/
  unclosed : ¬ closing passage.environment.name <:+: passage.environment.body
  /-- The prose opens none. -/
  unopened : ∀ name ∈ alignedNames, ¬ opening name <:+: passage.prose

/-- An environment as it is put into a block. -/
def block (environment : Environment) : Text :=
  "$$\\begin\x7baligned\x7d" ++ environment.body ++ "\\end\x7baligned\x7d$$"

theorem alignedNames_plain : ∀ name ∈ alignedNames, '\x7d' ∉ name ∧ '\\' ∉ name := by
  decide

theorem blockAligned_of_unopened {prose : Text}
    (unopened : ∀ name ∈ alignedNames, ¬ opening name <:+: prose) :
    blockAligned prose = prose := by
  rw [blockAligned_eq_self_iff]
  intro environment member inside
  exact unopened _ member ((opening_prefix_source environment).isInfix.trans inside)

/-- A passage is rewritten by itself, whatever follows it. -/
theorem blockAligned_append {passage : Passage} (isAligned : passage.IsAligned) (rest : Text) :
    blockAligned (passage.prose ++ (passage.environment.source ++ rest)) =
      passage.prose ++ (block passage.environment ++ blockAligned rest) := by
  have unread : ∀ tail, tail ≠ [] → tail <:+ passage.prose →
      aligned.read? (tail ++ (passage.environment.source ++ rest)) = none := by
    intro tail nonempty suffix
    refine read?_eq_none fun name member front => isAligned.unopened name member ?_
    have within := opening_prefix_of_append (alignedNames_plain name member).2 nonempty front
    exact within.isInfix.trans suffix.isInfix
  have read : aligned.read? (passage.environment.source ++ rest) =
      some (passage.environment, rest) :=
    read?_source alignedNames_plain isAligned.name_mem isAligned.unclosed rest
  rw [blockAligned, aligned.substitute_append _ unread, aligned.substitute_of_read? _ read]
  simp [block, source, opening, closing, alignedBlockName, Delimiter.blockMarker, Text.ofString]

/-- Aligned environments behind one another are put into blocks one by one, and all else stays. -/
theorem aligned_environments_are_wrapped_apart {passages : List Passage} {last : Text}
    (isAligned : ∀ passage ∈ passages, passage.IsAligned)
    (unopened : ∀ name ∈ alignedNames, ¬ opening name <:+: last) :
    blockAligned (text source passages ++ last) = text block passages ++ last := by
  induction passages with
  | nil => exact blockAligned_of_unopened unopened
  | cons passage passages ih =>
      rw [List.forall_mem_cons] at isAligned
      have parts : ∀ write, text write (passage :: passages) ++ last =
          passage.prose ++ (write passage.environment ++ (text write passages ++ last)) := by
        intro write
        simp [text]
      rw [parts, parts, blockAligned_append isAligned.1, ih isAligned.2]

/-- A body with both words of an environment whose name starts the outer one, and an environment
flush behind it whose body has the longer name's closing word. -/
def similarNames : List Passage :=
  [⟨"a\\\\", ⟨"align*", "x \\begin\x7balign\x7dy\\end\x7balign\x7d"⟩⟩,
    ⟨"", ⟨"align", "1\\end\x7balign*\x7d"⟩⟩]

/-- Each environment ends with its own word. -/
theorem aligned_environments_are_wrapped_apart_of_similar_names :
    (∀ passage ∈ similarNames, passage.IsAligned) ∧
      (∀ name ∈ alignedNames, ¬ opening name <:+: Text.ofString "\n\\end\x7balign\x7d") ∧
      blockAligned (text source similarNames ++ "\n\\end\x7balign\x7d") =
        Text.ofString "a\\\\$$\\begin\x7baligned\x7dx " ++
          "\\begin\x7balign\x7dy\\end\x7balign\x7d\\end\x7baligned\x7d$$" ++
          "$$\\begin\x7baligned\x7d1\\end\x7balign*\x7d\\end\x7baligned\x7d$$" ++
          "\n\\end\x7balign\x7d" := by
  have isAligned : ∀ passage ∈ similarNames, passage.IsAligned := by
    rw [similarNames, List.forall_mem_cons, List.forall_mem_singleton]
    constructor
    · exact ⟨by decide, by decide +kernel, by decide +kernel⟩
    · exact ⟨by decide, by decide +kernel, by decide +kernel⟩
  have unopened : ∀ name ∈ alignedNames,
      ¬ opening name <:+: Text.ofString "\n\\end\x7balign\x7d" := by
    decide +kernel
  exact ⟨isAligned, unopened, (aligned_environments_are_wrapped_apart isAligned unopened).trans
    (by decide +kernel)⟩

end Passage
end DollarMath
