import DollarMath.Proofs.Markup.Chunk

/-!
# The search for markers

The search goes over the whole text in passes.  A pass looks for the first dollars at the position
that the search has come to or behind it, where a backslash right before the position counts, and
puts the position behind what it takes of them: both dollars of a marker, otherwise one.  Every
pass raises the position and keeps it inside the text, so the search ends.

`Search.Sound` says what every pass keeps: the markers found and those ahead are the markers of the
text, and those found are unescaped pairs of dollars that do not overlap and end at the position at
the latest.
-/

namespace DollarMath
namespace Marker

theorem Dollars.escapedBehind_before {escaped : Bool} {text : Text} {dollars : Dollars}
    (found : first? escaped text = some dollars) :
    Text.escapedBehind escaped dollars.before = false := by
  refine first?_induction (motive := fun escaped _ dollars =>
    Text.escapedBehind escaped dollars.before = false) ?here ?passed found
  case here =>
    intro text
    rw [before_atFront, Text.escapedBehind]
  case passed =>
    intro _ _ _ _ _ clear
    exact clear

/-- A pair of dollars without a backslash before it starts at `offset`. -/
def PairAt (text : Text) (offset : Nat) : Prop :=
  ∃ left right, text = left ++ '$' :: '$' :: right ∧ left.length = offset ∧
    left.getLast? ≠ some '\\'

/-- The search for the markers of a text, between two passes. -/
structure Search where
  /-- The mode behind the last dollars. -/
  mode : Mode
  /-- The offset that the search has come to. -/
  position : Nat
  /-- The offsets of the markers found so far. -/
  found : List Nat
  deriving DecidableEq, Repr

namespace Search

/-- Before the first pass. -/
def start : Search :=
  ⟨.prose, 0, []⟩

/-- The first dollars at the position or behind it. -/
def dollars? (text : Text) (search : Search) : Option Dollars :=
  Dollars.first? (Text.escapedBehind false (text.take search.position))
    (text.drop search.position)

/-- Takes a marker, or one of the dollars when they are no marker. -/
def take (search : Search) (dollars : Dollars) : Search :=
  let offset := search.position + dollars.before.length
  match search.mode.behind dollars.before, dollars.double with
  | .prose, true => ⟨.block, offset + 2, search.found ++ [offset]⟩
  | .prose, false => ⟨.inline, offset + 1, search.found⟩
  | .inline, _ => ⟨.prose, offset + 1, search.found⟩
  | .block, true => ⟨.prose, offset + 2, search.found ++ [offset]⟩
  | .block, false => ⟨.block, offset + 1, search.found⟩

/-- One pass; there is none when no dollars are left. -/
def next? (text : Text) (search : Search) : Option Search :=
  (search.dollars? text).map search.take

/-- Exactly so many passes; there are none when the search ends before. -/
def run? (text : Text) : Nat → Search → Option Search
  | 0, search => some search
  | passes + 1, search => search.next? text >>= run? text passes

/-- The markers at the position or behind it. -/
def ahead (text : Text) (search : Search) : List Nat :=
  scan search.mode (Text.escapedBehind false (text.take search.position)) search.position
    (text.drop search.position)

variable {text : Text} {search later last : Search}

section Pass

theorem exists_of_dollars? {dollars : Dollars} (read : search.dollars? text = some dollars) :
    ∃ left, text = left ++ (dollars.run ++ dollars.rest) ∧
      search.position + dollars.before.length = left.length ∧ left.getLast? ≠ some '\\' := by
  have behind := Dollars.eq_of_first? read
  have inside : search.position ≤ text.length := by
    by_contra outside
    rw [List.drop_eq_nil_of_le (by omega)] at behind
    cases double : dollars.double <;> simp [Dollars.run, double] at behind
  refine ⟨text.take search.position ++ dollars.before, ?_, ?_, ?_⟩
  · rw [List.append_assoc, ← behind, List.take_append_drop]
  · rw [List.length_append, List.length_take_of_le inside]
  · intro last
    have escaped : Text.escapedBehind false (text.take search.position ++ dollars.before) = true :=
      Text.escapedBehind_eq_true_iff.mpr (.inl last)
    rw [Text.escapedBehind_append, Dollars.escapedBehind_before read] at escaped
    exact Bool.false_ne_true escaped

/-- What a pass can do: it passes one dollar, or it takes a marker. -/
inductive Step (text : Text) (search : Search) : Search → Prop where
  /-- The dollar is no marker. -/
  | dollar {left right : Text} {mode : Mode} (parts : text = left ++ '$' :: right)
      (place : search.position ≤ left.length)
      (ahead : search.ahead text = scan mode false (left.length + 1) right) :
      Step text search ⟨mode, left.length + 1, search.found⟩
  /-- The dollars are a marker. -/
  | marker {left right : Text} {mode : Mode} (parts : text = left ++ '$' :: '$' :: right)
      (place : search.position ≤ left.length) (unescaped : left.getLast? ≠ some '\\')
      (ahead : search.ahead text = left.length :: scan mode false (left.length + 2) right) :
      Step text search ⟨mode, left.length + 2, search.found ++ [left.length]⟩

theorem step_of_next? (passed : search.next? text = some later) : Step text search later := by
  obtain ⟨dollars, read, rfl⟩ := Option.map_eq_some_iff.mp passed
  obtain ⟨left, parts, width, unescaped⟩ := exists_of_dollars? read
  have place : search.position ≤ left.length := by omega
  have here : search.ahead text = scan (search.mode.behind dollars.before) false left.length
      (dollars.run ++ dollars.rest) := by
    rw [ahead, scan_of_first? read, width]
  rw [take, width]
  generalize search.mode.behind dollars.before = mode at here ⊢
  cases double : dollars.double with
  | true =>
      rw [Dollars.run, double] at parts here
      cases mode with
      | prose => exact .marker parts place unescaped here
      | inline => exact .dollar parts place here
      | block => exact .marker parts place unescaped here
  | false =>
      rw [Dollars.run, double] at parts here
      have apart := Dollars.rest_ne_of_single read double
      cases mode with
      | prose => exact .dollar parts place (here.trans (scan_prose_single _ apart))
      | inline => exact .dollar parts place here
      | block => exact .dollar parts place (here.trans (scan_block_single _ apart))

/-- A pass raises the position and keeps it inside the text. -/
theorem position_lt_of_next? (passed : search.next? text = some later) :
    search.position < later.position ∧ later.position ≤ text.length := by
  cases step_of_next? passed with
  | dollar parts place _ =>
      simp only [parts, List.length_append, List.length_cons]
      omega
  | marker parts place _ _ =>
      simp only [parts, List.length_append, List.length_cons]
      omega

theorem ahead_behind_dollar {left right : Text} (parts : text = left ++ '$' :: right)
    (behind : search.position = left.length + 1) :
    search.ahead text = scan search.mode false search.position right := by
  have passed : search.position = (left ++ ['$']).length := by simp [behind]
  have whole : text = (left ++ ['$']) ++ right := by simp [parts]
  rw [ahead, passed, whole, List.take_left, List.drop_left, Text.escapedBehind_append]
  rfl

/-- When no dollars are left, no marker is. -/
theorem ahead_of_next?_eq_none (ended : search.next? text = none) : search.ahead text = [] :=
  scan_of_first?_eq_none (Option.map_eq_none_iff.mp ended)

end Pass

section Run

/-- Every pass goes on by one character at least. -/
theorem position_add_le_of_run? {passes : Nat} (run : run? text passes search = some last) :
    search.position + passes ≤ last.position := by
  induction passes generalizing search with
  | zero =>
      obtain rfl := Option.some.inj run
      exact le_rfl
  | succ passes ih =>
      obtain ⟨later, passed, rest⟩ := Option.bind_eq_some_iff.mp run
      have further := (position_lt_of_next? passed).1
      have behind := ih rest
      omega

/-- The search ends, wherever it starts. -/
theorem exists_run?_ended (text : Text) (search : Search) :
    ∃ passes last, run? text passes search = some last ∧ last.next? text = none := by
  cases pass : search.next? text with
  | none => exact ⟨0, search, rfl, pass⟩
  | some later =>
      obtain ⟨passes, last, run, ended⟩ := exists_run?_ended text later
      refine ⟨passes + 1, last, ?_, ended⟩
      rw [run?, pass]
      exact run
termination_by text.length - search.position
decreasing_by
  have further := position_lt_of_next? pass
  omega

/-- What every pass keeps. -/
structure Sound (text : Text) (search : Search) : Prop where
  /-- The search does not leave the text. -/
  inside : search.position ≤ text.length
  /-- The markers found and those ahead are the markers of the text. -/
  complete : search.found ++ search.ahead text = offsets text
  /-- The markers found do not overlap. -/
  apart : search.found.Pairwise fun earlier later => earlier + 2 ≤ later
  /-- The markers found end at the position at the latest. -/
  behind : ∀ offset ∈ search.found, offset + 2 ≤ search.position
  /-- The markers found are pairs of dollars that no backslash escapes. -/
  pairs : ∀ offset ∈ search.found, PairAt text offset

theorem sound_start (text : Text) : Sound text start where
  inside := Nat.zero_le _
  complete := (offsetsFrom_eq_scan .prose 0 text).symm
  apart := .nil
  behind := by simp [start]
  pairs := by simp [start]

theorem Sound.next (sound : Sound text search) (passed : search.next? text = some later) :
    Sound text later := by
  have inside := (position_lt_of_next? passed).2
  cases step_of_next? passed with
  | @dollar left right mode parts place ahead =>
      refine ⟨inside, ?_, sound.apart, ?_, sound.pairs⟩
      · rw [ahead_behind_dollar parts rfl, ← ahead, sound.complete]
      · intro offset member
        have before := sound.behind offset member
        change offset + 2 ≤ left.length + 1
        omega
  | @marker left right mode parts place unescaped ahead =>
      refine ⟨inside, ?_, ?_, ?_, ?_⟩
      · have passed : text = (left ++ ['$']) ++ '$' :: right := by simp [parts]
        rw [ahead_behind_dollar passed (by simp), ← sound.complete, ahead, List.append_assoc]
        rfl
      · refine List.pairwise_append.mpr ⟨sound.apart, List.pairwise_singleton _ _, ?_⟩
        intro earlier member later same
        obtain rfl := List.mem_singleton.mp same
        exact (sound.behind earlier member).trans place
      · intro offset member
        change offset + 2 ≤ left.length + 2
        rcases List.mem_append.mp member with member | same
        · have before := sound.behind offset member
          omega
        · exact (congrArg (· + 2) (List.mem_singleton.mp same)).le
      · intro offset member
        rcases List.mem_append.mp member with member | same
        · exact sound.pairs offset member
        · exact ⟨left, right, parts, (List.mem_singleton.mp same).symm, unescaped⟩

theorem Sound.run {passes : Nat} (sound : Sound text search)
    (run : run? text passes search = some last) : Sound text last := by
  induction passes generalizing search with
  | zero => exact Option.some.inj run ▸ sound
  | succ passes ih =>
      obtain ⟨later, passed, rest⟩ := Option.bind_eq_some_iff.mp run
      exact ih (sound.next passed) rest

/-- A search that has ended has found the markers of the text. -/
theorem Sound.found_eq (sound : Sound text last) (ended : last.next? text = none) :
    last.found = offsets text := by
  rw [← sound.complete, ahead_of_next?_eq_none ended, List.append_nil]

theorem exists_run?_start (text : Text) :
    ∃ passes ≤ text.length, ∃ last, run? text passes start = some last ∧
      last.next? text = none ∧ Sound text last := by
  obtain ⟨passes, last, run, ended⟩ := exists_run?_ended text start
  have sound := (sound_start text).run run
  have counted := position_add_le_of_run? run
  rw [start, Nat.zero_add] at counted
  exact ⟨passes, counted.trans sound.inside, last, run, ended, sound⟩

end Run

end Search

/-- Markers stand behind one another and do not overlap. -/
theorem offsets_pairwise (text : Text) :
    (offsets text).Pairwise fun earlier later => earlier + 2 ≤ later := by
  obtain ⟨_, _, last, _, ended, sound⟩ := Search.exists_run?_start text
  rw [← sound.found_eq ended]
  exact sound.apart

/-- Every marker is an unescaped pair of dollars. -/
theorem pairAt_of_mem_offsets {text : Text} {offset : Nat} (member : offset ∈ offsets text) :
    PairAt text offset := by
  obtain ⟨_, _, last, _, ended, sound⟩ := Search.exists_run?_start text
  rw [← sound.found_eq ended] at member
  exact sound.pairs offset member

/-- The search for the markers of a text raises its position in every pass, ends, and finds the
markers.  They do not overlap, each is an unescaped pair of dollars in the text, and the text cut
at them is the text again when they are put back. -/
theorem search_advances_to_disjoint_markers (text : Text) :
    (∀ search later : Search, search.next? text = some later →
        search.position < later.position ∧ later.position ≤ text.length) ∧
      (∃ passes ≤ text.length, ∃ last, Search.run? text passes .start = some last ∧
        last.next? text = none ∧ last.found = offsets text) ∧
      (offsets text).Pairwise (fun earlier later => earlier + 2 ≤ later) ∧
      (∀ offset ∈ offsets text, PairAt text offset) ∧
      join (cutAt 0 text (offsets text)) = text := by
  obtain ⟨passes, few, last, run, ended, sound⟩ := Search.exists_run?_start text
  refine ⟨fun search later passed => Search.position_lt_of_next? passed,
    ⟨passes, few, last, run, ended, sound.found_eq ended⟩, offsets_pairwise text,
    fun offset member => pairAt_of_mem_offsets member, join_chunks text⟩

/-- The third run of dollars is read twice: its first dollar closes a formula in the sentence, and
the pass behind it starts inside the run and finds a marker. -/
theorem search_advances_to_disjoint_markers_of_neighbours :
    Search.next? "$a$$b$$$c$$" ⟨.inline, 4, []⟩ = some ⟨.prose, 6, []⟩ ∧ 4 < 6 ∧
      6 ∈ offsets "$a$$b$$$c$$" ∧ PairAt "$a$$b$$$c$$" 6 := by
  have passed : Search.next? "$a$$b$$$c$$" ⟨.inline, 4, []⟩ = some ⟨.prose, 6, []⟩ := by
    decide +kernel
  have member : 6 ∈ offsets "$a$$b$$$c$$" := by decide +kernel
  obtain ⟨advances, _, _, pairs, _⟩ := search_advances_to_disjoint_markers "$a$$b$$$c$$"
  exact ⟨passed, (advances _ _ passed).1, member, pairs 6 member⟩

end Marker
end DollarMath
