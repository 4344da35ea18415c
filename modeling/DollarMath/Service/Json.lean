import DollarMath.Text.Basic

/-!
# JSON values

The bodies of requests and of responses.
-/

namespace DollarMath

/-- A JSON value. -/
inductive Json where
  /-- The null value. -/
  | null
  /-- A truth value. -/
  | bool (value : Bool)
  /-- The number `mantissa / 10 ^ places`. -/
  | number (mantissa : Int) (places : Nat)
  /-- A text. -/
  | string (text : Text)
  /-- Values in order. -/
  | array (items : List Json)
  /-- Values under names. -/
  | object (fields : List (Text × Json))
  deriving Repr, Inhabited

namespace Json

/-- A natural number as a value. -/
def ofNat (n : Nat) : Json :=
  .number n 0

/-- Texts in order as a value. -/
def ofTexts (texts : List Text) : Json :=
  .array (texts.map .string)

end Json
end DollarMath
