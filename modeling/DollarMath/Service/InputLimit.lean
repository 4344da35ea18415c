import DollarMath.Log
import DollarMath.Text.Blank
import DollarMath.Text.IntegerLiteral
import DollarMath.Text.Quoted

/-!
# Input limit

The service converts texts up to a limit.  The limit is an integer literal in a setting; a setting
that is no literal is passed over with a warning, and an empty one without a word.
-/

namespace DollarMath
namespace InputLimit

/-- The name of the setting. -/
def settingName : Text :=
  "TEXFORMATTER_MAX_INPUT_CHARS"

/-- The limit that holds when none is set. -/
def unset : Int :=
  1000000

/-- A limit, and what there is to say about where it came from. -/
structure Reading where
  /-- The greatest length of a text that is converted. -/
  limit : Int
  /-- The log lines about the setting. -/
  log : List LogLine
  deriving DecidableEq, Repr

/-- The warning about a setting that is no integer literal. -/
def passedOver (value : Text) : LogLine where
  level := .warning
  message :=
    "Ignoring invalid " ++ settingName ++ "=" ++ Text.quoted value ++ "; using " ++
      Text.signedDecimal unset

/-- The limit under a setting. -/
def ofSetting (setting : Option Text) : Reading :=
  let value := Text.strip (setting.getD [])
  if value = [] then ⟨unset, []⟩
  else
    match IntegerLiteral.value? value with
    | some limit => ⟨limit, []⟩
    | none => ⟨unset, [passedOver value]⟩

end InputLimit
end DollarMath
