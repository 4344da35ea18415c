import DollarMath.Text.Basic

/-!
# Line ends

A line may end in a newline, in a carriage return or in both.  Inside the program every line ends
in a newline.
-/

namespace DollarMath
namespace Text

/-- The text with every line end written as a newline. -/
def unifyLineEnds : Text → Text
  | [] => []
  | '\r' :: '\n' :: text => '\n' :: unifyLineEnds text
  | '\r' :: text => '\n' :: unifyLineEnds text
  | c :: text => c :: unifyLineEnds text

/-- The text with a line end behind it, unless it is empty. -/
def closeLine (text : Text) : Text :=
  if text = [] then [] else text ++ ['\n']

end Text
end DollarMath
