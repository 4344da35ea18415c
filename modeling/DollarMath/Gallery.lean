import DollarMath.Conversion

/-!
# Gallery

Worked examples of what a conversion does.  An example stores its source only; the converted form
is made when it is asked for.
-/

namespace DollarMath

/-- A worked example. -/
structure Example where
  /-- What the example is about. -/
  title : Text
  /-- What the conversion does to it. -/
  description : Text
  /-- The text to convert. -/
  source : Text
  deriving DecidableEq, Repr

namespace Example

/-- The converted source of an example. -/
def converted (entry : Example) : Text :=
  convert entry.source

/-- The examples of the gallery, in order. -/
def gallery : List Example :=
  [{ title := "Inline math"
     description := "\\( ... \\) delimiters become single dollars."
     source := "The circle \\(x^2 + y^2 = r^2\\) has radius \\(r\\)." },
   { title := "Aligned equations"
     description := "align environments become aligned inside a $$ block."
     source := "\\begin\x7balign\x7d\nf(x) &= x^2 \\\\\ng(x) &= 2x\n\\end\x7balign\x7d" },
   { title := "Display block"
     description := "\\[ ... \\] becomes $$ ... $$ and \\displaystyle is dropped."
     source := "\\[\n\\displaystyle \\int_0^1 x^2 \\, dx = \\frac\x7b1\x7d\x7b3\x7d\n\\]" },
   { title := "Matrix"
     description := "Bare matrix environments are wrapped in $$."
     source :=
      "The identity is \\begin\x7bpmatrix\x7d1 & 0 \\\\ 0 & 1\\end\x7bpmatrix\x7d." },
   { title := "Piecewise definition"
     description := "cases environments are wrapped in $$ and keep their name."
     source :=
      "|x| = \\begin\x7bcases\x7d x & x \\ge 0 \\\\ -x & x < 0 \\end\x7bcases\x7d" },
   { title := "Literal underscores"
     description := "A _ or ^ with nothing to attach to is escaped."
     source :=
      "Files like draft_ and notes^ keep their symbols next to \\(a_1 + b^\x7b2\x7d\\)." },
   { title := "Redundant braces"
     description := "\\text\x7b\x7b...\x7d\x7d loses its extra pair of braces."
     source := "\\(\\text\x7b\x7bspeed\x7d\x7d = \\frac\x7bd\x7d\x7bt\x7d\\)" }]

end Example
end DollarMath
