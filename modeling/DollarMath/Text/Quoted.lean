import DollarMath.Text.Printable

/-!
# Quoted text

A text is quoted to show exactly which characters it has.  Single quotes stand around it, double
quotes when it has a single quote and no double one.  The quote and the backslash are escaped, and
so is each character that is not printable.
-/

namespace DollarMath
namespace Text

/-- A number in lower-case hexadecimal digits, filled up with zeros to `width`. -/
def hexadecimal (width n : Nat) : Text :=
  (Nat.toDigits 16 n).leftpad width '0'

/-- A character by its code point, in the shortest of the three forms that has room for it. -/
def codePointEscape (c : Char) : Text :=
  if c.toNat < 0x100 then "\\x" ++ hexadecimal 2 c.toNat
  else if c.toNat < 0x10000 then "\\u" ++ hexadecimal 4 c.toNat
  else "\\U" ++ hexadecimal 8 c.toNat

/-- A character as it is written between quotes of the given kind. -/
def quotedChar (quote c : Char) : Text :=
  if c = quote ∨ c = '\\' then ['\\', c]
  else if c = '\n' then "\\n"
  else if c = '\r' then "\\r"
  else if c = '\t' then "\\t"
  else if isPrintable c then [c]
  else codePointEscape c

/-- The quote that is put around a text. -/
def quoteFor (text : Text) : Char :=
  if '\'' ∈ text ∧ '"' ∉ text then '"' else '\''

/-- The text between quotes, with its unprintable characters escaped. -/
def quoted (text : Text) : Text :=
  let quote := quoteFor text
  quote :: text.flatMap (quotedChar quote) ++ [quote]

end Text
end DollarMath
