import DollarMath.Proofs.Text.Words
import DollarMath.Text.Pattern

/-!
# Substitution at occurrences

A substitution is followed piece by piece: over characters at which no occurrence starts it does
nothing, and an occurrence is passed as a whole.  When every occurrence that is rewritten becomes
heavier, for some weight of the characters, a substitution either finds nothing to rewrite or
makes the text heavier.  So it can be told from the result alone whether something was rewritten.
-/

namespace DollarMath
namespace Text

/-- The sum of the weights of the characters of a text. -/
def weigh (weight : Char → Int) : Text → Int
  | [] => 0
  | c :: text => weight c + weigh weight text

variable (weight : Char → Int)

@[simp]
theorem weigh_nil : weigh weight [] = 0 := rfl

@[simp]
theorem weigh_cons (c : Char) (text : Text) :
    weigh weight (c :: text) = weight c + weigh weight text := rfl

@[simp]
theorem weigh_append (left right : Text) :
    weigh weight (left ++ right) = weigh weight left + weigh weight right := by
  induction left with
  | nil => simp
  | cons c left ih => simp [ih, Int.add_assoc]

/-- An edit that leaves every text alone or makes it heavier. -/
def Raises (edit : Text → Text) : Prop :=
  ∀ text, edit text = text ∨ weigh weight text < weigh weight (edit text)

variable {weight} {first second : Text → Text}

theorem Raises.comp (raisesFirst : Raises weight first) (raisesSecond : Raises weight second) :
    Raises weight (second ∘ first) := by
  intro text
  rw [Function.comp_apply]
  rcases raisesSecond (first text) with same | heavier
  · rw [same]
    exact raisesFirst text
  · rcases raisesFirst text with same | heavier'
    · rw [same] at heavier ⊢
      exact .inr heavier
    · exact .inr (Int.lt_trans heavier' heavier)

/-- What an edit has done is not undone by another one. -/
theorem Raises.comp_eq_self_iff (raisesFirst : Raises weight first)
    (raisesSecond : Raises weight second) (text : Text) :
    second (first text) = text ↔ first text = text ∧ second text = text := by
  constructor
  · intro fixed
    have same : first text = text := by
      rcases raisesFirst text with same | heavier
      · exact same
      · rcases raisesSecond (first text) with kept | heavier'
        · rw [← kept, fixed]
        · rw [fixed] at heavier'
          omega
    rw [same] at fixed
    exact ⟨same, fixed⟩
  · rintro ⟨same, fixed⟩
    rw [same, fixed]

end Text

namespace Pattern

variable {α : Type} (pattern : Pattern α)

@[simp]
theorem read?_nil : pattern.read? [] = none := by
  cases read : pattern.read? [] with
  | none => rfl
  | some found =>
      have empty := (List.append_eq_nil_iff.mp (pattern.eq_of_read? read).symm).1
      exact absurd empty (pattern.source_ne_nil found.1)

@[simp]
theorem pieces_nil : pattern.pieces [] = [] := by
  rw [pieces]

theorem pieces_cons {c : Char} {text : Text} (absent : pattern.read? (c :: text) = none) :
    pattern.pieces (c :: text) = .plain c :: pattern.pieces text := by
  rw [pieces]
  split
  · rfl
  · rename_i read
    simp [absent] at read

theorem pieces_of_read? {text rest : Text} {occurrence : α}
    (read : pattern.read? text = some (occurrence, rest)) :
    pattern.pieces text = .found occurrence :: pattern.pieces rest := by
  cases text with
  | nil => simp at read
  | cons c text =>
      rw [pieces]
      split
      · rename_i absent
        simp [absent] at read
      · rename_i read'
        rw [read, Option.some.injEq, Prod.mk.injEq] at read'
        rw [read'.1, read'.2]

/-- An occurrence that is read from some text. -/
def Occurs (occurrence : α) : Prop :=
  ∃ text rest, pattern.read? text = some (occurrence, rest)

theorem occurs_of_mem_pieces {text : Text} {occurrence : α}
    (member : .found occurrence ∈ pattern.pieces text) : pattern.Occurs occurrence := by
  fun_induction pattern.pieces text with
  | case1 => simp at member
  | case2 c text _ ih => exact ih (by simpa using member)
  | case3 c text other rest read ih =>
      rcases List.mem_cons.mp member with same | member
      · cases same
        exact ⟨c :: text, rest, read⟩
      · exact ih member

/-- No occurrence starts anywhere in the text. -/
def Absent (text : Text) : Prop :=
  ∀ rest, rest <:+ text → pattern.read? rest = none

theorem absent_iff {valid : α → Prop}
    (sound : ∀ {text occurrence rest}, pattern.read? text = some (occurrence, rest) →
      valid occurrence)
    (complete : ∀ occurrence rest, valid occurrence →
      pattern.read? (pattern.source occurrence ++ rest) ≠ none) {text : Text} :
    pattern.Absent text ↔
      ∀ occurrence, valid occurrence → ¬ pattern.source occurrence <:+: text := by
  constructor
  · rintro absent occurrence isValid ⟨before, behind, rfl⟩
    refine complete occurrence behind isValid (absent _ ⟨before, ?_⟩)
    rw [List.append_assoc]
  · intro none rest suffix
    cases read : pattern.read? rest with
    | none => rfl
    | some found =>
        have whole := pattern.eq_of_read? read
        have inside : pattern.source found.1 <:+: rest := ⟨[], found.2, whole.symm⟩
        exact absurd (inside.trans suffix.isInfix) (none found.1 (sound read))

theorem absent_cons {c : Char} {text : Text} :
    pattern.Absent (c :: text) ↔ pattern.read? (c :: text) = none ∧ pattern.Absent text := by
  constructor
  · intro absent
    exact ⟨absent _ List.suffix_rfl,
      fun rest behind => absent rest (behind.trans (List.suffix_cons c text))⟩
  · rintro ⟨here, behind⟩ rest suffix
    rcases List.suffix_cons_iff.mp suffix with rfl | suffix
    · exact here
    · exact behind rest suffix

theorem pieces_append {left right : Text}
    (absent : ∀ rest, rest ≠ [] → rest <:+ left → pattern.read? (rest ++ right) = none) :
    pattern.pieces (left ++ right) = left.map .plain ++ pattern.pieces right := by
  induction left with
  | nil => rfl
  | cons c left ih =>
      have here : pattern.read? (c :: (left ++ right)) = none :=
        absent (c :: left) (List.cons_ne_nil c left) List.suffix_rfl
      have behind := ih fun rest nonempty suffix =>
        absent rest nonempty (suffix.trans (List.suffix_cons c left))
      rw [List.cons_append, pieces_cons pattern here, behind]
      rfl

theorem pieces_of_absent {text : Text} (absent : pattern.Absent text) :
    pattern.pieces text = text.map .plain := by
  have whole : pattern.pieces (text ++ []) = text.map .plain ++ pattern.pieces [] := by
    apply pattern.pieces_append
    intro rest _ suffix
    simpa using absent rest suffix
  simpa using whole

@[simp]
theorem substitute_nil (write : α → Text) : pattern.substitute write [] = [] := by
  rw [substitute, pieces_nil, List.flatMap_nil]

theorem substitute_cons (write : α → Text) {c : Char} {text : Text}
    (absent : pattern.read? (c :: text) = none) :
    pattern.substitute write (c :: text) = c :: pattern.substitute write text := by
  rw [substitute, pattern.pieces_cons absent]
  rfl

/-- Up to `right` no occurrence starts, so that substitution keeps all before it. -/
theorem substitute_append (write : α → Text) {left right : Text}
    (absent : ∀ rest, rest ≠ [] → rest <:+ left → pattern.read? (rest ++ right) = none) :
    pattern.substitute write (left ++ right) = left ++ pattern.substitute write right := by
  have plain : (left.map Piece.plain).flatMap (Piece.render write) = left := by
    rw [List.flatMap_map]
    exact List.flatMap_singleton' left
  rw [substitute, pattern.pieces_append absent, List.flatMap_append, plain, substitute]

theorem substitute_of_read? (write : α → Text) {text rest : Text} {occurrence : α}
    (read : pattern.read? text = some (occurrence, rest)) :
    pattern.substitute write text = write occurrence ++ pattern.substitute write rest := by
  rw [substitute, pattern.pieces_of_read? read, List.flatMap_cons, Piece.render, substitute]

/-- Occurrences among pieces, each with the offset at which it stands; the first piece stands at
`offset`. -/
def located (offset : Nat) : List (Piece α) → List (Nat × α)
  | [] => []
  | .plain _ :: pieces => located (offset + 1) pieces
  | .found occurrence :: pieces =>
      (offset, occurrence) :: located (offset + (pattern.source occurrence).length) pieces

/-- The occurrences that reading a text from left to right meets, with their offsets. -/
def places (text : Text) : List (Nat × α) :=
  pattern.located 0 (pattern.pieces text)

theorem mem_pieces_of_mem_located {pieces : List (Piece α)} {offset : Nat} {place : Nat × α}
    (member : place ∈ pattern.located offset pieces) : .found place.2 ∈ pieces := by
  induction pieces generalizing offset with
  | nil => simp [located] at member
  | cons piece pieces ih =>
      cases piece with
      | plain c => exact List.mem_cons_of_mem _ (ih member)
      | found occurrence =>
          rcases List.mem_cons.mp member with rfl | member
          · exact List.mem_cons_self
          · exact List.mem_cons_of_mem _ (ih member)

theorem occurs_of_mem_places {text : Text} {place : Nat × α}
    (member : place ∈ pattern.places text) : pattern.Occurs place.2 :=
  pattern.occurs_of_mem_pieces (pattern.mem_pieces_of_mem_located member)

@[simp]
theorem located_map_plain (offset : Nat) (text : Text) :
    pattern.located offset (text.map .plain) = [] := by
  induction text generalizing offset with
  | nil => rfl
  | cons c text ih => exact ih (offset + 1)

theorem places_eq_nil_iff {text : Text} : pattern.places text = [] ↔ pattern.Absent text := by
  constructor
  · have general : ∀ offset, pattern.located offset (pattern.pieces text) = [] →
        pattern.Absent text := by
      fun_induction pattern.pieces text with
      | case1 =>
          intro offset _ rest suffix
          rw [List.suffix_nil.mp suffix, read?_nil]
      | case2 c text absent ih =>
          intro offset empty
          exact (pattern.absent_cons).mpr ⟨absent, ih (offset + 1) empty⟩
      | case3 c text occurrence rest read ih =>
          intro offset empty
          simp [located] at empty
    exact general 0
  · intro absent
    rw [places, pattern.pieces_of_absent absent, located_map_plain]

theorem renderFrom_congr {write write' : Nat → α → Text} (pieces : List (Piece α)) (offset : Nat)
    (same : ∀ place ∈ pattern.located offset pieces,
      write place.1 place.2 = write' place.1 place.2) :
    pattern.renderFrom write offset pieces = pattern.renderFrom write' offset pieces := by
  induction pieces generalizing offset with
  | nil => rfl
  | cons piece pieces ih =>
      cases piece with
      | plain c => rw [renderFrom, renderFrom, ih (offset + 1) same]
      | found occurrence =>
          rw [located, List.forall_mem_cons] at same
          rw [renderFrom, renderFrom, ih _ same.2, same.1]

theorem renderFrom_eq_source {write : Nat → α → Text} (pieces : List (Piece α)) (offset : Nat)
    (same : ∀ place ∈ pattern.located offset pieces,
      write place.1 place.2 = pattern.source place.2) :
    pattern.renderFrom write offset pieces = pieces.flatMap (Piece.render pattern.source) :=
  (pattern.renderFrom_congr pieces offset same).trans
    (pattern.renderFrom_const pattern.source pieces offset)

theorem substituteAt_of_absent {text : Text} (write : Nat → α → Text)
    (absent : pattern.Absent text) : pattern.substituteAt write text = text := by
  rw [substituteAt, renderFrom_eq_source, source_pieces]
  rw [← places, pattern.places_eq_nil_iff.mpr absent]
  simp

theorem substituteAt_congr {write write' : Nat → α → Text} {text : Text}
    (same : ∀ place ∈ pattern.places text, write place.1 place.2 = write' place.1 place.2) :
    pattern.substituteAt write text = pattern.substituteAt write' text :=
  pattern.renderFrom_congr _ 0 same

theorem substitute_of_absent {text : Text} (write : α → Text) (absent : pattern.Absent text) :
    pattern.substitute write text = text := by
  rw [← substituteAt_const, pattern.substituteAt_of_absent _ absent]

@[simp]
theorem renderFrom_map_plain_append (write : Nat → α → Text) (offset : Nat) (text : Text)
    (pieces : List (Piece α)) :
    pattern.renderFrom write offset (text.map .plain ++ pieces) =
      text ++ pattern.renderFrom write (offset + text.length) pieces := by
  induction text generalizing offset with
  | nil => simp
  | cons c text ih =>
      have moved : offset + 1 + text.length = offset + (c :: text).length := by
        rw [List.length_cons]
        omega
      rw [List.map_cons, List.cons_append, renderFrom, ih, moved, List.cons_append]

/-- In a text with a single occurrence, this one is rewritten and all else stays. -/
theorem substituteAt_of_single (write : Nat → α → Text) {left right rest : Text} {occurrence : α}
    (before : ∀ tail, tail ≠ [] → tail <:+ left → pattern.read? (tail ++ right) = none)
    (here : pattern.read? right = some (occurrence, rest)) (behind : pattern.Absent rest) :
    pattern.substituteAt write (left ++ right) =
      left ++ (write left.length occurrence ++ rest) := by
  have unchanged : ∀ offset, pattern.renderFrom write offset (pattern.pieces rest) = rest := by
    intro offset
    have whole := pattern.renderFrom_map_plain_append write offset rest []
    rw [← pattern.pieces_of_absent behind] at whole
    simpa [renderFrom] using whole
  rw [substituteAt, pattern.pieces_append before, pattern.pieces_of_read? here,
    renderFrom_map_plain_append, renderFrom, unchanged, Nat.zero_add]

section Weight

variable {weight : Char → Int} {write : Nat → α → Text}

theorem weigh_lt_renderFrom
    (pieces : List (Piece α))
    (raises : ∀ offset occurrence, .found occurrence ∈ pieces →
      write offset occurrence = pattern.source occurrence ∨
        Text.weigh weight (pattern.source occurrence) <
          Text.weigh weight (write offset occurrence))
    (offset : Nat) :
    (∀ place ∈ pattern.located offset pieces,
      write place.1 place.2 = pattern.source place.2) ∨
    Text.weigh weight (pieces.flatMap (Piece.render pattern.source)) <
      Text.weigh weight (pattern.renderFrom write offset pieces) := by
  induction pieces generalizing offset with
  | nil => simp [located]
  | cons piece pieces ih =>
      have later := ih fun offset occurrence member =>
        raises offset occurrence (List.mem_cons_of_mem _ member)
      cases piece with
      | plain c =>
          rcases later (offset + 1) with same | lighter
          · exact .inl same
          · right
            simpa [Piece.render, renderFrom] using lighter
      | found occurrence =>
          rw [located, List.forall_mem_cons]
          simp only [List.flatMap_cons, Piece.render, renderFrom, Text.weigh_append]
          rcases raises offset occurrence List.mem_cons_self with here | here <;>
            rcases later (offset + (pattern.source occurrence).length) with same | lighter
          · exact .inl ⟨here, same⟩
          · rw [here]
            exact .inr (by omega)
          · rw [pattern.renderFrom_eq_source _ _ same]
            exact .inr (by omega)
          · exact .inr (by omega)

/-- A substitution that makes what it rewrites heavier leaves a text alone or makes it heavier. -/
theorem substituteAt_eq_self_or_weigh_lt
    (raises : ∀ offset occurrence, pattern.Occurs occurrence →
      write offset occurrence = pattern.source occurrence ∨
        Text.weigh weight (pattern.source occurrence) <
          Text.weigh weight (write offset occurrence))
    (text : Text) :
    pattern.substituteAt write text = text ∨
      Text.weigh weight text < Text.weigh weight (pattern.substituteAt write text) := by
  rcases pattern.weigh_lt_renderFrom (pattern.pieces text) (fun offset occurrence member =>
    raises offset occurrence (pattern.occurs_of_mem_pieces member)) 0 with same | lighter
  · left
    rw [substituteAt, pattern.renderFrom_eq_source _ _ same, source_pieces]
  · right
    rwa [source_pieces] at lighter

theorem substituteAt_eq_self_iff
    (raises : ∀ offset occurrence, pattern.Occurs occurrence →
      write offset occurrence = pattern.source occurrence ∨
        Text.weigh weight (pattern.source occurrence) <
          Text.weigh weight (write offset occurrence))
    {text : Text} :
    pattern.substituteAt write text = text ↔
      ∀ place ∈ pattern.places text, write place.1 place.2 = pattern.source place.2 := by
  constructor
  · intro fixed
    rcases pattern.weigh_lt_renderFrom (pattern.pieces text) (fun offset occurrence member =>
      raises offset occurrence (pattern.occurs_of_mem_pieces member)) 0 with same | lighter
    · exact same
    · rw [source_pieces, ← substituteAt, fixed] at lighter
      exact absurd lighter (Int.lt_irrefl _)
  · intro same
    rw [substituteAt, pattern.renderFrom_eq_source _ _ same, source_pieces]

end Weight

section Everywhere

variable {weight : Char → Int} {write : α → Text}

theorem raises_substitute
    (raises : ∀ occurrence, pattern.Occurs occurrence →
      Text.weigh weight (pattern.source occurrence) < Text.weigh weight (write occurrence)) :
    Text.Raises weight (pattern.substitute write) := by
  intro text
  rw [← substituteAt_const]
  exact pattern.substituteAt_eq_self_or_weigh_lt
    (fun _ occurrence occurs => .inr (raises occurrence occurs)) text

/-- A substitution that makes every occurrence heavier only leaves those texts alone that have
no occurrence. -/
theorem substitute_eq_self_iff
    (raises : ∀ occurrence, pattern.Occurs occurrence →
      Text.weigh weight (pattern.source occurrence) < Text.weigh weight (write occurrence))
    {text : Text} : pattern.substitute write text = text ↔ pattern.Absent text := by
  constructor
  · intro fixed
    rw [← substituteAt_const,
      pattern.substituteAt_eq_self_iff
        fun _ occurrence occurs => .inr (raises occurrence occurs)] at fixed
    rw [← places_eq_nil_iff, List.eq_nil_iff_forall_not_mem]
    intro place member
    have heavier := raises place.2 (pattern.occurs_of_mem_places member)
    rw [fixed place member] at heavier
    exact absurd heavier (Int.lt_irrefl _)
  · exact pattern.substitute_of_absent write

end Everywhere

section Related

variable {related : Text → Text → Prop}

/-- A relation that is kept by common characters and by each rewritten occurrence holds between a
text and the result of the substitution. -/
theorem substituteAt_rel (write : Nat → α → Text) (nil : related [] [])
    (plain : ∀ c before after, related before after → related (c :: before) (c :: after))
    (found : ∀ offset occurrence before after, pattern.Occurs occurrence →
      write offset occurrence ≠ pattern.source occurrence → related before after →
      related (pattern.source occurrence ++ before) (write offset occurrence ++ after))
    (text : Text) : related text (pattern.substituteAt write text) := by
  have common : ∀ front before after, related before after →
      related (front ++ before) (front ++ after) := by
    intro front before after holds
    induction front with
    | nil => exact holds
    | cons c front ih => exact plain c _ _ ih
  have general : ∀ offset,
      related text (pattern.renderFrom write offset (pattern.pieces text)) := by
    fun_induction pattern.pieces text with
    | case1 => exact fun _ => nil
    | case2 c text _ ih => exact fun offset => plain c _ _ (ih (offset + 1))
    | case3 c text occurrence rest read ih =>
        intro offset
        have later := ih (offset + (pattern.source occurrence).length)
        rw [pattern.eq_of_read? read, renderFrom]
        by_cases same : write offset occurrence = pattern.source occurrence
        · rw [same]
          exact common _ _ _ later
        · exact found offset occurrence _ _ ⟨_, _, read⟩ same later
  exact general 0

theorem substitute_rel (write : α → Text) (nil : related [] [])
    (plain : ∀ c before after, related before after → related (c :: before) (c :: after))
    (found : ∀ occurrence before after, pattern.Occurs occurrence → related before after →
      related (pattern.source occurrence ++ before) (write occurrence ++ after))
    (text : Text) : related text (pattern.substitute write text) := by
  rw [← substituteAt_const]
  exact pattern.substituteAt_rel _ nil plain
    (fun _ occurrence before after occurs _ => found occurrence before after occurs) text

end Related

theorem filter_substituteAt {kept : Char → Bool} {write : Nat → α → Text}
    (same : ∀ offset occurrence, pattern.Occurs occurrence →
      (write offset occurrence).filter kept = (pattern.source occurrence).filter kept)
    (text : Text) : (pattern.substituteAt write text).filter kept = text.filter kept := by
  refine @substituteAt_rel α pattern
    (fun before after => after.filter kept = before.filter kept) write rfl ?_ ?_ text
  · intro c before after equal
    rw [List.filter_cons, List.filter_cons, equal]
  · intro offset occurrence before after occurs _ equal
    rw [List.filter_append, List.filter_append, same offset occurrence occurs, equal]

theorem filter_substitute {kept : Char → Bool} {write : α → Text}
    (same : ∀ occurrence, pattern.Occurs occurrence →
      (write occurrence).filter kept = (pattern.source occurrence).filter kept)
    (text : Text) : (pattern.substitute write text).filter kept = text.filter kept := by
  rw [← substituteAt_const]
  exact pattern.filter_substituteAt (fun _ => same) text

end Pattern
end DollarMath
