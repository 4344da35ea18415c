import DollarMath.Proofs.Conversion
import DollarMath.Service.Endpoint

/-!
# Answers to conversions

A request for a conversion is answered with the conversion of the text it sends, when that is not
longer than the limit, and refused otherwise, whichever framework carries it.  The parts of the
answer are looked up by their names.
-/

namespace DollarMath

/-- The value under a name. -/
def Json.field? (name : Text) : Json → Option Json
  | .object fields => fields.lookup name
  | _ => none

namespace Service

variable {limit : Int} {text : Text}

theorem convert_of_short (short : text.length ≤ limit) :
    (handlers limit).convert text = .ok (conversionBody text) := by
  have within : withinLimit limit text = .ok text := if_neg (Int.not_lt.mpr short)
  simp only [handlers, within]
  rfl

theorem convert_of_long (long : limit < text.length) :
    (handlers limit).convert text = .error (tooLong text.length limit) := by
  have beyond : withinLimit limit text = .error (tooLong text.length limit) := if_pos long
  simp only [handlers, beyond]
  rfl

namespace Framework.Carries

variable {framework : Framework} (carries : framework.Carries)
include carries

theorem respond_of_short (short : text.length ≤ limit) :
    framework.respond (handlers limit) (.toConvert text) = ⟨200, conversionBody text⟩ := by
  rw [carries.respond_toConvert, convert_of_short short, Response.ofResult]

theorem status_toConvert (limit : Int) (text : Text) :
    (framework.respond (handlers limit) (.toConvert text)).status =
      if limit < text.length then 413 else 200 := by
  split
  · rename_i long
    rw [carries.respond_toConvert, convert_of_long long, Response.ofResult, tooLong]
  · rename_i short
    rw [carries.respond_of_short (Int.not_lt.mp short)]

/-- Where a conversion is answered, the answer is the conversion of some text. -/
theorem exists_text_of_answered {request : Request} (asked : framework.isForConversion request)
    (answered : (framework.respond (handlers limit) request).status = 200) :
    ∃ text, framework.respond (handlers limit) request = ⟨200, conversionBody text⟩ := by
  obtain ⟨text, same⟩ := carries.respond_of_answered asked answered
  refine ⟨text, ?_⟩
  rw [same] at answered ⊢
  by_cases short : text.length ≤ limit
  · rw [convert_of_short short, Response.ofResult]
  · rw [convert_of_long (Int.not_le.mp short), Response.ofResult, tooLong] at answered
    cases answered

end Framework.Carries

section Endpoints

theorem Refusal.eq_failed_of_status {refusal : Refusal} (answered : refusal.response.status = 200) :
    ∃ failure, refusal = .failed failure := by
  cases refusal with
  | failed failure => exact ⟨failure, rfl⟩
  | _ => simp [response, Response.ofResult] at answered

theorem sentText_ne_failed (sent : Option Json) (failure : Failure) :
    sentText sent ≠ .error (.failed failure) := by
  rw [sentText.eq_def]
  split <;> try split
  all_goals simp

theorem bodyFor_of_target {handlers : Handlers} {request : Request}
    (leads : Endpoint.ofTarget? request.target = some .convert) :
    bodyFor handlers request =
      if Endpoint.convert.answers request.method then Endpoint.convert.body handlers request.body
      else .error .wrongMethod := by
  rw [bodyFor, leads]

theorem body_convert_of_sent {handlers : Handlers} {sent : Option Json}
    (read : sentText sent = .ok text) :
    Endpoint.convert.body handlers sent =
      match handlers.convert text with
      | .ok body => .ok body
      | .error failure => .error (.failed failure) := by
  rw [Endpoint.body, read]
  rfl

theorem respond_of_body {handlers : Handlers} {request : Request} {result : Except Failure Json}
    (same : bodyFor handlers request =
      match result with
      | .ok body => .ok body
      | .error failure => .error (.failed failure)) :
    respond handlers request = .ofResult result := by
  rw [respond, same]
  cases result <;> rfl

theorem ofTarget?_toConvert (text : Text) :
    Endpoint.ofTarget? (Request.toConvert text).target = some .convert :=
  Endpoint.ofTarget?_path .convert

theorem respond_toConvert (handlers : Handlers) (text : Text) :
    respond handlers (.toConvert text) = .ofResult (handlers.convert text) := by
  have answers : Endpoint.convert.answers "POST" = true := by decide
  refine respond_of_body ?_
  rw [bodyFor_of_target (ofTarget?_toConvert text), Request.toConvert, if_pos answers]
  exact body_convert_of_sent rfl

theorem exists_text_of_respond {handlers : Handlers} {request : Request}
    (leads : Endpoint.ofTarget? request.target = some .convert)
    (answered : (respond handlers request).status = 200) :
    ∃ text, respond handlers request = .ofResult (handlers.convert text) := by
  by_cases answers : Endpoint.convert.answers request.method
  · have whole : bodyFor handlers request = Endpoint.convert.body handlers request.body := by
      rw [bodyFor_of_target leads, if_pos answers]
    cases read : sentText request.body with
    | ok text => exact ⟨text, respond_of_body (whole.trans (body_convert_of_sent read))⟩
    | error refusal =>
        have refused : bodyFor handlers request = .error refusal := by
          rw [whole, Endpoint.body, read]
          rfl
        rw [respond, refused] at answered
        obtain ⟨failure, rfl⟩ := Refusal.eq_failed_of_status answered
        exact absurd read (sentText_ne_failed request.body failure)
  · rw [respond, bodyFor_of_target leads, if_neg answers] at answered
    cases answered

theorem Framework.isForConversion_ofEndpoints (request : Request) :
    Framework.ofEndpoints.isForConversion request =
      (Endpoint.ofTarget? request.target = some .convert) := rfl

theorem Framework.respond_ofEndpoints : Framework.ofEndpoints.respond = Service.respond := by
  rw [Framework.ofEndpoints]

/-- The endpoints carry requests for conversions to their handler. -/
theorem carries_ofEndpoints : Framework.ofEndpoints.Carries := by
  constructor
  · intro text
    rw [Framework.isForConversion_ofEndpoints]
    exact ofTarget?_toConvert text
  · rw [Framework.respond_ofEndpoints]
    exact respond_toConvert
  · intro handlers request leads answered
    rw [Framework.isForConversion_ofEndpoints] at leads
    rw [Framework.respond_ofEndpoints] at answered ⊢
    exact exists_text_of_respond leads answered

end Endpoints

section Fields

variable (text : Text)

theorem field?_text : (conversionBody text).field? "text" = some (.string (convert text)) := by
  rw [← Report.content_eq_convert]
  rfl

theorem field?_inputChars :
    (conversionBody text).field? "inputChars" = some (Json.ofNat text.length) := rfl

theorem field?_outputChars :
    (conversionBody text).field? "outputChars" = some (Json.ofNat (convert text).length) := by
  rw [← Report.content_eq_convert]
  rfl

end Fields

end Service
end DollarMath
