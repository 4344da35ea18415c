import DollarMath.Text.Blank

/-!
# Origins

A page may call the service when its origin is granted.  Two settings say which origins are: a list
of exact origins, in which a star stands for all of them, and where no list is set a regular
expression.  Where neither is set the pages of the local machine are granted.  The origins are
checked by a middleware that is left open.
-/

namespace DollarMath
namespace Origin

/-- The value of a setting without the blank characters around it, if that is not empty. -/
def value? (setting : Option Text) : Option Text :=
  match Text.strip (setting.getD []) with
  | [] => none
  | value => some value

/-- The origins in a list with commas between them, without empty ones. -/
def items (value : Text) : List Text :=
  ((value.splitOn ',').map Text.strip).filter fun item => item ≠ []

/-- The origins of the list setting, if there is at least one. -/
def list? (setting : Option Text) : Option (List Text) :=
  (value? setting).bind fun value =>
    match items value with
    | [] => none
    | origins => some origins

/-- The origins of the local machine. -/
def localNotation : Text :=
  "https?://(localhost|127\\.0\\.0\\.1):\\d+"

/-- The origin that stands for all origins. -/
def star : Text :=
  "*"

/-- What the check of origins is set up with. -/
structure Configuration where
  /-- The origins that are granted. -/
  origins : List Text
  /-- The notation of the expression for further ones, if there is one. -/
  expression : Option Text
  deriving DecidableEq, Repr

/-- The configuration under the two settings.  Where there is a list of origins the expression is
left out. -/
def Configuration.ofSettings (listSetting expressionSetting : Option Text) : Configuration :=
  match list? listSetting with
  | some origins => ⟨origins, none⟩
  | none => ⟨[], some ((value? expressionSetting).getD localNotation)⟩

/-- How a page turns to the service. -/
inductive Approach where
  /-- It asks beforehand whether it may make a request with this method and these headers. -/
  | preflight (method : Text) (headers : List Text)
  /-- It makes a request with this method. -/
  | plain (method : Text)
  deriving DecidableEq, Repr

/-- What checks the origins of the pages that turn to a service, as it is set up. -/
structure Middleware where
  /-- What the answer to a page of an origin names as granted, if it names anything. -/
  granted : Configuration → Approach → Text → Option Text

/-- A middleware compares origins exactly: without an expression it grants those of the list, and
all of them if there is a star in the list. -/
def Middleware.ComparesExactly (middleware : Middleware) : Prop :=
  ∀ (origins : List Text) (approach : Approach) (origin : Text),
    (middleware.granted ⟨origins, none⟩ approach origin).isSome ↔
      origin ∈ origins ∨ star ∈ origins

end Origin
end DollarMath
