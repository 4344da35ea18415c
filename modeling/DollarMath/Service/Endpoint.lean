import DollarMath.Service.Framework
import DollarMath.Service.Target

/-!
# Endpoints

A framework that has an endpoint for each handler and for the pages about the service itself.  An
endpoint has one path and one method.  A request that is refused gets an answer that says why.
-/

namespace DollarMath
namespace Service

/-- A page about the service. -/
inductive Page where
  /-- The description of the endpoints for programs. -/
  | description
  /-- The page on which endpoints can be tried out. -/
  | trial
  /-- The page that is shown after a sign-in on the trial page. -/
  | signedIn
  /-- The description of the endpoints for people. -/
  | manual
  deriving DecidableEq, Repr

/-- The path of a page. -/
def Page.path : Page → Text
  | .description => "/openapi.json"
  | .trial => "/docs"
  | .signedIn => "/docs/oauth2-redirect"
  | .manual => "/redoc"

/-- What the service can be asked for. -/
inductive Endpoint where
  /-- Whether the service runs. -/
  | health
  /-- The examples of the gallery. -/
  | examples
  /-- The conversion of a text. -/
  | convert
  /-- A page about the service. -/
  | page (kind : Page)
  deriving DecidableEq, Repr

namespace Endpoint

/-- Every endpoint. -/
def all : List Endpoint :=
  [.health, .examples, .convert, .page .description, .page .trial, .page .signedIn, .page .manual]

/-- The path of an endpoint. -/
def path : Endpoint → Text
  | .health => "/health"
  | .examples => "/examples"
  | .convert => "/convert"
  | .page kind => kind.path

/-- The one method that an endpoint answers. -/
def method : Endpoint → Text
  | .health => "GET"
  | .examples => "GET"
  | .convert => "POST"
  | .page _ => "GET"

/-- The endpoint that a target leads to. -/
def ofTarget? (target : Text) : Option Endpoint :=
  all.find? fun endpoint => Target.leadsTo target endpoint.path

theorem ofTarget?_path (endpoint : Endpoint) : ofTarget? endpoint.path = some endpoint := by
  cases endpoint with
  | page kind => cases kind <;> decide
  | _ => decide

/-- Whether the endpoint answers a method, in whichever case that is written. -/
def answers (endpoint : Endpoint) (method : Text) : Bool :=
  method.map Char.toUpper == endpoint.method

end Endpoint

/-- Why a request is refused. -/
inductive Refusal where
  /-- The target leads to no endpoint. -/
  | unknownPath
  /-- The endpoint does not answer the method. -/
  | wrongMethod
  /-- A value has to be sent along, and there is none. -/
  | bodyMissing
  /-- The value is no object. -/
  | bodyNoObject
  /-- The object has no text. -/
  | textMissing
  /-- What the object has as its text is none. -/
  | textNoString
  /-- The handler gives no value. -/
  | failed (failure : Failure)
  deriving DecidableEq, Repr

namespace Refusal

/-- The value that says what is wrong with the part of a request at `location`. -/
def fault (kind : Text) (location : List Text) (message : Text) : Json :=
  .array [.object [("type", .string kind), ("loc", Json.ofTexts location),
    ("msg", .string message)]]

/-- The answer to a request that is refused. -/
def response : Refusal → Response
  | .unknownPath => .ofResult (.error ⟨404, "Not Found"⟩)
  | .wrongMethod => .ofResult (.error ⟨405, "Method Not Allowed"⟩)
  | .bodyMissing => ⟨422, fault "missing" ["body"] "Field required"⟩
  | .bodyNoObject =>
      ⟨422, fault "model_attributes_type" ["body"]
        "Input should be a valid dictionary or object to extract fields from"⟩
  | .textMissing => ⟨422, fault "missing" ["body", "text"] "Field required"⟩
  | .textNoString => ⟨422, fault "string_type" ["body", "text"] "Input should be a valid string"⟩
  | .failed failure => .ofResult (.error failure)

end Refusal

/-- The text to convert in the value that is sent along. -/
def sentText : Option Json → Except Refusal Text
  | none => .error .bodyMissing
  | some .null => .error .bodyMissing
  | some (.object fields) =>
      match fields.lookup (Text.ofString "text") with
      | some (.string text) => .ok text
      | some _ => .error .textNoString
      | none => .error .textMissing
  | some _ => .error .bodyNoObject

/-- What an endpoint answers, given the value that is sent along.  A page has no value to send
back. -/
def Endpoint.body (handlers : Handlers) (sent : Option Json) : Endpoint → Except Refusal Json
  | .health => .ok handlers.health
  | .examples => .ok handlers.examples
  | .convert =>
      (sentText sent).bind fun text =>
        match handlers.convert text with
        | .ok body => .ok body
        | .error failure => .error (.failed failure)
  | .page _ => .ok .null

/-- What a request gets. -/
def bodyFor (handlers : Handlers) (request : Request) : Except Refusal Json :=
  match Endpoint.ofTarget? request.target with
  | none => .error .unknownPath
  | some endpoint =>
      if endpoint.answers request.method then endpoint.body handlers request.body
      else .error .wrongMethod

/-- The answer to a request. -/
def respond (handlers : Handlers) (request : Request) : Response :=
  match bodyFor handlers request with
  | .ok body => ⟨200, body⟩
  | .error refusal => refusal.response

/-- The framework of the endpoints. -/
def Framework.ofEndpoints : Framework where
  isForConversion request := Endpoint.ofTarget? request.target = some .convert
  respond := Service.respond

end Service
end DollarMath
