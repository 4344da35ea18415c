import DollarMath.Service.Handler

/-!
# Frameworks

A framework carries requests to the handlers of a service and answers with what these give.  Which
one does so is left open: it finds the handler and the text of a request in its own way, as long as
it keeps to three rules.
-/

namespace DollarMath
namespace Service

/-- A request to the service. -/
structure Request where
  /-- What is to be done. -/
  method : Text
  /-- The resource it is to be done with. -/
  target : Text
  /-- The value that is sent along. -/
  body : Option Json

/-- The request to convert a text. -/
def Request.toConvert (text : Text) : Request :=
  ⟨"POST", "/convert", some (.object [("text", .string text)])⟩

/-- An answer of the service. -/
structure Response where
  /-- The status code. -/
  status : Nat
  /-- The value that is sent back. -/
  body : Json

/-- The answer with what a handler gives. -/
def Response.ofResult : Except Failure Json → Response
  | .ok body => ⟨200, body⟩
  | .error failure => ⟨failure.status, .object [("detail", .string failure.detail)]⟩

/-- What stands between the requests to a service and its handlers. -/
structure Framework where
  /-- Whether a request is one for a conversion. -/
  isForConversion : Request → Prop
  /-- The answer of a service with these handlers. -/
  respond : Handlers → Request → Response

/-- The rules of a framework for conversions. -/
structure Framework.Carries (framework : Framework) : Prop where
  /-- The request to convert a text is one for a conversion. -/
  isForConversion_toConvert (text : Text) : framework.isForConversion (.toConvert text)
  /-- It is answered with what the handler gives for the text. -/
  respond_toConvert (handlers : Handlers) (text : Text) :
    framework.respond handlers (.toConvert text) = .ofResult (handlers.convert text)
  /-- Every request for a conversion is answered with what the handler gives for some text, unless
  it is refused. -/
  respond_of_answered {handlers : Handlers} {request : Request} :
    framework.isForConversion request → (framework.respond handlers request).status = 200 →
      ∃ text, framework.respond handlers request = .ofResult (handlers.convert text)

end Service
end DollarMath
