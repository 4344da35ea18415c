import DollarMath.Text.Basic

/-!
# Script characters

An underscore or a caret sets what follows it as a subscript or superscript.  Where no operand
follows, the character is meant literally and takes a backslash, unless it has one already.
-/

namespace DollarMath
namespace Script

/-- The two characters that lower and raise what follows them. -/
def isScript (c : Char) : Bool :=
  c == '_' || c == '^'

/-- A character that can start the operand of a script character: an ASCII letter or digit, or an
opening brace. -/
def startsOperand (c : Char) : Bool :=
  c.isAlphanum || c == '\x7b'

/-- Whether a text starts with an operand. -/
def hasOperand : Text → Bool
  | [] => false
  | c :: _ => startsOperand c

/-- Escapes the bare script characters of a text; `escaped` tells whether a backslash stands
directly before it. -/
def escapeFrom (escaped : Bool) : Text → Text
  | [] => []
  | c :: text =>
      let rest := c :: escapeFrom (c == '\\') text
      if isScript c && !escaped && !hasOperand text then '\\' :: rest else rest

/-- Puts a backslash before each script character that has neither a backslash before it nor an
operand behind it. -/
def escapeBare (text : Text) : Text :=
  escapeFrom false text

end Script
end DollarMath
