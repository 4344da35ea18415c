import DollarMath.Command.Usage
import DollarMath.Text.DecimalDigit

/-!
# Words of the command line

Each word is told by itself to be an operand or a switch.  A long switch may be cut short as long
as one spelling is left, and a value may be written behind an equals sign or directly behind the
letter of a short switch.  Two dashes make all words behind them operands.
-/

namespace DollarMath
namespace Command

/-- Two dashes. -/
def dashes : Text :=
  "--"

/-- A switch as one word spells it. -/
inductive Spelled where
  /-- A switch without a value in the same word. -/
  | bare (switch : Switch)
  /-- A switch of one letter with the rest of the word, which an equals sign may part from it. -/
  | short (switch : Switch) (parted : Bool) (rest : Text)
  /-- A switch with its long spelling, with a value behind an equals sign. -/
  | long (switch : Switch) (value : Text)
  deriving DecidableEq, Repr

/-- A switch with what is written in its word behind an equals sign, if there is one. -/
def Spelled.ofParts (spelling : Text) (switch : Switch) : Option Text → Spelled
  | none => .bare switch
  | some value =>
      if dashes.isPrefixOf spelling then .long switch value else .short switch true value

/-- A word of the command line. -/
inductive Word where
  /-- A word that names a source or is the value of a switch. -/
  | operand (text : Text)
  /-- Two dashes, behind which there are only operands. -/
  | separator
  /-- A word that names a switch. -/
  | spelled (spelled : Spelled)
  /-- A word that looks like a switch and is none. -/
  | unknown (text : Text)
  deriving DecidableEq, Repr

namespace Word

/-- Whether a text is a row of at least one decimal digit. -/
def isDigits (text : Text) : Bool :=
  text ≠ [] && text.all Text.isDecimalDigit

/-- Whether what stands behind a minus sign is a number, with or without decimal places. -/
def isMagnitude (text : Text) : Bool :=
  isDigits text ||
    match text.dropWhile Text.isDecimalDigit with
    | '.' :: places => isDigits places
    | _ => false

/-- A text without the line end behind it. -/
def chomp (text : Text) : Text :=
  if text.getLast? = some '\n' then text.dropLast else text

/-- Whether a word is a negative number. -/
def isNegativeNumber : Text → Bool
  | '-' :: text => isMagnitude (chomp text)
  | _ => false

/-- The parts of a word before and behind its first equals sign, if it has one. -/
def splitValue (word : Text) : Text × Option Text :=
  match Text.cut? "=" word with
  | some (name, value) => (name, some value)
  | none => (word, none)

/-- The switches that a word can mean, with the spellings that it stands for: with two dashes all
those whose spelling starts with it, with one dash the switch of its first letter. -/
def candidates (word : Text) : List (Text × Spelled) :=
  if dashes.isPrefixOf word then
    let (name, value) := splitValue word
    (Switch.table.filter fun pair => name.isPrefixOf pair.1).map fun (spelling, switch) =>
      (spelling, .ofParts spelling switch value)
  else
    (Switch.table.filter fun pair => pair.1 == word.take 2).map fun (spelling, switch) =>
      (spelling, .short switch false (word.drop 2))

/-- The switch that a word with a complete spelling names. -/
def ofExact? (word : Text) : Option Spelled :=
  match Switch.ofSpelling? word with
  | some switch => some (.bare switch)
  | none =>
      let (name, value) := splitValue word
      value.bind fun value =>
        (Switch.ofSpelling? name).map fun switch => .ofParts name switch (some value)

/-- What a word before any two dashes is. -/
def ofText : Text → Except UsageError Word
  | '-' :: c :: text =>
      let word := '-' :: c :: text
      match ofExact? word with
      | some exact => .ok (.spelled exact)
      | none =>
          match candidates word with
          | [] =>
              .ok (if isNegativeNumber word ∨ ' ' ∈ word then .operand word else .unknown word)
          | [(_, only)] => .ok (.spelled only)
          | several => .error (.ambiguous word (several.map Prod.fst))
  | text => .ok (.operand text)

/-- The words of a command line. -/
def ofTexts : List Text → Except UsageError (List Word)
  | [] => .ok []
  | text :: texts =>
      if text = dashes then .ok (.separator :: texts.map .operand)
      else (ofText text).bind fun word => (ofTexts texts).map (word :: ·)

end Word
end Command
end DollarMath
