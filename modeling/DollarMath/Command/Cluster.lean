import DollarMath.Command.Word

/-!
# Clusters of switches

One word can name several switches by their letters.  All but the last are flags; the last may
take the rest of the word or the next word as its value.  Releases of the reader of command lines
differ in how they read such a word, and in whether two dashes can be a value.
-/

namespace DollarMath
namespace Command

/-- What releases of the reader of command lines differ in. -/
structure Habits where
  /-- Whether two dashes are dropped where they are the value of the output switch. -/
  dropsDashes : Bool
  /-- Whether an equals sign parts each letter of a cluster from its value, so that it gives a value
  to a flag that takes none; otherwise it does so behind an output switch at the front only. -/
  partsLetters : Bool
  /-- Whether letters behind a flag that name no switch are left over; otherwise they are the value
  of a flag that takes none. -/
  sparesLetters : Bool
  deriving DecidableEq, Repr

/-- What the last switch of a word does about a value. -/
inductive Ending where
  /-- It takes none. -/
  | complete
  /-- It takes none, and the rest of the word has no place. -/
  | leftover (text : Text)
  /-- It takes this one. -/
  | value (text : Text)
  /-- It takes the next word. -/
  | valueInNextWord
  deriving DecidableEq, Repr

/-- The flags of one word, and what is left to do for a switch behind them. -/
structure Cluster where
  /-- The flags in order. -/
  flags : List Flag
  /-- What the last switch does about a value. -/
  ending : Ending
  deriving DecidableEq, Repr

namespace Cluster

/-- The cluster with one more flag before it. -/
def cons (flag : Flag) (cluster : Cluster) : Cluster :=
  { cluster with flags := flag :: cluster.flags }

/-- A switch at the end of its word. -/
def ofLast : Switch → Cluster
  | .flag flag => ⟨[flag], .complete⟩
  | .output => ⟨[], .valueInNextWord⟩

/-- A switch of one letter and the rest of its word, which is the value of the output switch and
holds further letters behind a flag. -/
def ofShort (habits : Habits) : Switch → Bool → Text → Except UsageError Cluster
  | .output, _, value => .ok ⟨[], .value value⟩
  | .flag flag, _, [] => .error (.valueUnused flag [])
  | .flag flag, parted, letter :: rest =>
      if letter = '-' ∨ parted ∧ habits.partsLetters then
        .error (.valueUnused flag (letter :: rest))
      else
        match Switch.ofLetter? letter, rest with
        | none, _ =>
            if habits.sparesLetters then .ok ⟨[flag], .leftover ('-' :: letter :: rest)⟩
            else .error (.valueUnused flag (letter :: rest))
        | some next, [] => .ok ((ofLast next).cons flag)
        | some next, c :: rest =>
            if c = '=' ∧ habits.partsLetters then (ofShort habits next true rest).map (cons flag)
            else (ofShort habits next false (c :: rest)).map (cons flag)

/-- The cluster that a word spells. -/
def ofSpelled (habits : Habits) : Spelled → Except UsageError Cluster
  | .bare switch => .ok (ofLast switch)
  | .short switch parted rest => ofShort habits switch parted rest
  | .long .output value => .ok ⟨[], .value value⟩
  | .long (.flag flag) value => .error (.valueUnused flag value)

end Cluster
end Command
end DollarMath
