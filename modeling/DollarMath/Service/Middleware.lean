import DollarMath.Service.Origin
import DollarMath.Text.RegularExpression

/-!
# A middleware

A middleware that compares an origin with the list and then reads all of it by the expression.
-/

namespace DollarMath
namespace Origin

/-- What is named as granted to a page of `origin`, if the origin is granted. -/
def Configuration.grant? (configuration : Configuration) (origin : Text) : Option Text :=
  let accepted :=
    (configuration.expression.bind RegularExpression.ofText?).any fun expression =>
      expression.accepts origin
  if star ∈ configuration.origins then some star
  else if origin ∈ configuration.origins ∨ accepted then some origin
  else none

/-- The middleware that looks at the origin only. -/
def Middleware.ofGrants : Middleware where
  granted configuration _ origin := configuration.grant? origin

end Origin
end DollarMath
