import DollarMath.Text.DecimalDigit

/-!
# Integer literals

An integer literal is a row of decimal digits of any script, behind at most one sign.  Two
neighbouring digits may have one underscore between them.  A literal has a bounded number of
digits, so that reading one takes a bounded time.
-/

namespace DollarMath
namespace IntegerLiteral

/-- The greatest number of digits of a literal, leading zeros included. -/
def maxDigits : Nat :=
  4300

/-- The values of the digits of an unsigned literal. -/
def digits? : Text → Option (List Nat)
  | [] => none
  | [c] => (Text.digitValue? c).map fun value => [value]
  | c :: '_' :: text => (Text.digitValue? c).bind fun value => (digits? text).map (value :: ·)
  | c :: next :: text =>
      (Text.digitValue? c).bind fun value => (digits? (next :: text)).map (value :: ·)

/-- The number that is written by digits of these values, the greatest place first. -/
def valueOf (digits : List Nat) : Nat :=
  digits.foldl (fun value digit => 10 * value + digit) 0

/-- The number that an unsigned literal stands for. -/
def magnitude? (text : Text) : Option Nat :=
  (digits? text).bind fun digits =>
    if digits.length ≤ maxDigits then some (valueOf digits) else none

/-- The integer that a literal stands for. -/
def value? : Text → Option Int
  | '-' :: text => (magnitude? text).map fun value => -(value : Int)
  | '+' :: text => (magnitude? text).map fun value => (value : Int)
  | text => (magnitude? text).map fun value => (value : Int)

end IntegerLiteral
end DollarMath
