import DollarMath.Proofs.Service.Answer
import DollarMath.Proofs.Text.IntegerLiteral
import DollarMath.Proofs.Text.Margin
import DollarMath.Service.InputLimit

/-!
# Settings of the input limit

A setting sets a limit when it spells an integer between blank characters.  Such a limit holds as it
is spelled, in silence, and texts are refused from the first character beyond it; a limit below zero
refuses them all.  Any other setting with a visible character is passed over with one warning.
-/

namespace DollarMath
namespace InputLimit

/-- A setting that spells the limit between blank characters. -/
def Sets (setting : Text) (limit : Int) : Prop :=
  ∃ lead literal trail, Text.isBlankText lead ∧ Text.isBlankText trail ∧
    setting = lead ++ (literal ++ trail) ∧ IntegerLiteral.Spells literal limit

variable {setting : Text} {limit : Int}

/-- What a setting sets is read from it without its margins. -/
theorem sets_iff :
    Sets setting limit ↔ IntegerLiteral.value? (Text.strip setting) = some limit := by
  constructor
  · rintro ⟨lead, literal, trail, blankLead, blankTrail, rfl, spelled⟩
    rw [Text.strip_append_left blankLead, Text.strip_append_right _ blankTrail,
      spelled.isFlush.strip_eq_self]
    exact IntegerLiteral.value?_eq_some_iff.mpr spelled
  · intro read
    obtain ⟨lead, trail, blankLead, blankTrail, whole⟩ := Text.strip_parts setting
    exact ⟨lead, Text.strip setting, trail, blankLead, blankTrail, whole,
      IntegerLiteral.value?_eq_some_iff.mp read⟩

theorem Sets.strip_ne_nil (sets : Sets setting limit) : Text.strip setting ≠ [] :=
  (IntegerLiteral.value?_eq_some_iff.mp (sets_iff.mp sets)).isFlush.ne_nil

theorem ofSetting_of_sets (sets : Sets setting limit) : ofSetting (some setting) = ⟨limit, []⟩ := by
  rw [ofSetting, Option.getD_some, if_neg sets.strip_ne_nil, sets_iff.mp sets]

theorem ofSetting_of_not_sets (visible : Text.strip setting ≠ [])
    (other : ∀ limit, ¬ Sets setting limit) :
    ofSetting (some setting) = ⟨unset, [passedOver (Text.strip setting)]⟩ := by
  have unread : IntegerLiteral.value? (Text.strip setting) = none := by
    rw [Option.eq_none_iff_forall_ne_some]
    exact fun limit read => other limit (sets_iff.mpr read)
  rw [ofSetting, Option.getD_some, if_neg visible, unread]

open Service in
/-- A setting that spells an integer sets it as the limit without a word, and whichever framework
carries the requests a text is refused exactly when it has more characters, and converted
otherwise; any other setting that is not blank leaves the limit at a million and is warned about
once. -/
theorem setting_is_read_and_enforced (setting : Text) :
    (∀ limit, Sets setting limit →
      ofSetting (some setting) = ⟨limit, []⟩ ∧
        ∀ framework : Framework, framework.Carries → ∀ text : Text,
          (framework.respond (handlers (ofSetting (some setting)).limit)
            (.toConvert text)).status = if limit < text.length then 413 else 200) ∧
      (Text.strip setting ≠ [] → (∀ limit, ¬ Sets setting limit) →
        ∃ message, ofSetting (some setting) = ⟨1000000, [⟨.warning, message⟩]⟩) := by
  constructor
  · intro limit sets
    refine ⟨ofSetting_of_sets sets, fun framework carries text => ?_⟩
    rw [ofSetting_of_sets sets]
    exact carries.status_toConvert limit text
  · intro visible other
    exact ⟨_, ofSetting_of_not_sets visible other⟩

open Service in
/-- A setting with margins, a sign, a leading zero, an underscore and digits of two scripts, and one
with an underscore too many. -/
theorem setting_is_read_and_enforced_of_padded :
    let answer := fun text => Framework.ofEndpoints.respond
      (handlers (ofSetting (some "\t+0_1\u0662 \n")).limit) (.toConvert text)
    Sets "\t+0_1\u0662 \n" 12 ∧ ofSetting (some "\t+0_1\u0662 \n") = ⟨12, []⟩ ∧
      Framework.ofEndpoints.Carries ∧
      (answer (List.replicate 12 'x')).status = 200 ∧
      (answer (List.replicate 13 'x')).status = 413 ∧
      Text.strip "1__2" ≠ [] ∧ (∀ limit, ¬ Sets "1__2" limit) ∧
      ∃ message, ofSetting (some "1__2") = ⟨1000000, [⟨.warning, message⟩]⟩ := by
  intro answer
  have sets : Sets "\t+0_1\u0662 \n" 12 := sets_iff.mpr (by decide)
  have visible : Text.strip "1__2" ≠ [] := by decide
  have other : ∀ limit, ¬ Sets "1__2" limit := by
    intro limit sets
    have unread : IntegerLiteral.value? (Text.strip "1__2") = none := by decide
    cases unread.symm.trans (sets_iff.mp sets)
  obtain ⟨read, enforced⟩ := (setting_is_read_and_enforced _).1 12 sets
  have carries := carries_ofEndpoints
  exact ⟨sets, read, carries, enforced _ carries _, enforced _ carries _, visible, other,
    (setting_is_read_and_enforced _).2 visible other⟩

end InputLimit
end DollarMath
