/-
DelegatedEscrow/Json/Form/Limits.lean

The JSON forms of the limits of a deployment and of the environments.
-/
import DelegatedEscrow.Json.Form.Values
import DelegatedEscrow.Limits

namespace DelegatedEscrow

open Json JsonForm

namespace Limits

/-- The names of the fields, in the order in which they are written. -/
def fieldNames : List String :=
  ["min_authority_age", "unpause_cooldown", "timestamp_tolerance", "max_subscription_fee",
    "max_transaction_amount", "default_max_balance", "max_allowed_balance", "dust_threshold",
    "min_token_decimals", "max_token_decimals"]

instance : JsonForm Limits where
  toJson l :=
    record (fieldNames.zip
      [toJson l.lockAge, toJson l.cooldown, toJson l.skew, toJson l.feeCap, toJson l.tradeCap,
        toJson l.defaultCeiling, toJson l.hardCeiling, toJson l.dust, toJson l.minDecimals,
        toJson l.maxDecimals])
  ofJson? depth v := do
    let [lockAge, cooldown, skew, feeCap, tradeCap, defaultCeiling, hardCeiling, dust,
      minDecimals, maxDecimals] ← v.fields? fieldNames | none
    return {
      lockAge := ← required? depth lockAge
      cooldown := ← required? depth cooldown
      skew := ← required? depth skew
      feeCap := ← required? depth feeCap
      tradeCap := ← required? depth tradeCap
      defaultCeiling := ← required? depth defaultCeiling
      hardCeiling := ← required? depth hardCeiling
      dust := ← required? depth dust
      minDecimals := ← required? depth minDecimals
      maxDecimals := ← required? depth maxDecimals }

end Limits

instance : JsonForm Environment where
  toJson e := text e.label
  ofJson? _ := choice? Environment.all Environment.label

end DelegatedEscrow
