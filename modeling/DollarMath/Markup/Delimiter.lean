import DollarMath.Text.Pattern

/-!
# Formula delimiters

LaTeX encloses a formula in the sentence between `\(` and `\)` and a displayed one between `\[`
and `\]`.  In Markdown the delimiters are one dollar and two.  Each side is replaced on its own,
so a formula that is opened and never closed keeps an open dollar.
-/

namespace DollarMath
namespace Delimiter

/-- What opens and closes a formula in the sentence. -/
def inlineMarker : Text :=
  "$"

/-- What opens and closes a displayed formula. -/
def blockMarker : Text :=
  "$$"

/-- Replaces every `\(`, and then every `\)`, by a dollar. -/
def dollarInline (text : Text) : Text :=
  let opened := (Pattern.word "\\(").substitute (fun _ => inlineMarker) text
  (Pattern.word "\\)").substitute (fun _ => inlineMarker) opened

/-- Replaces every `\[`, and then every `\]`, by two dollars. -/
def dollarBlocks (text : Text) : Text :=
  let opened := (Pattern.word "\\[").substitute (fun _ => blockMarker) text
  (Pattern.word "\\]").substitute (fun _ => blockMarker) opened

end Delimiter
end DollarMath
