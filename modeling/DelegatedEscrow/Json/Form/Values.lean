/-
DelegatedEscrow/Json/Form/Values.lean

The JSON forms of keys, amounts, clock readings, tokens, authorities and
holders.  What wraps a single number is written as that number.
-/
import DelegatedEscrow.Custody
import DelegatedEscrow.Fault
import DelegatedEscrow.Json.Form
import DelegatedEscrow.Mint

namespace DelegatedEscrow

open Json JsonForm

instance : JsonForm Identity where
  toJson i := toJson i.bytes
  ofJson? depth v := (ofJson? depth v).bind Identity.ofBytes?

instance : JsonForm Amount where
  toJson a := toJson a.units
  ofJson? depth v := (ofJson? depth v).map Amount.mk

instance : JsonForm Timestamp where
  toJson t := toJson t.secs
  ofJson? depth v := (ofJson? depth v).map Timestamp.mk

instance : JsonForm Mint where
  toJson m := record [("id", toJson m.id), ("decimals", toJson m.decimals)]
  ofJson? depth v := do
    let [id, decimals] ← v.fields? ["id", "decimals"] | none
    return ⟨← required? depth id, ← required? depth decimals⟩

/-! ### Authorities -/

instance : JsonForm Authority where
  toJson a := text a.label
  ofJson? _ := choice? Authority.all Authority.label

instance : JsonForm Role where
  toJson
    | .owner => text "Owner"
    | .authority a => tagged "Authority" (toJson a)
  ofJson? depth v := do
    let (tag, data) ← v.variant?
    if tag = "Owner" then
      if data.all isNull then some .owner else none
    else if tag = "Authority" then
      return .authority (← required? depth data)
    else none

instance : JsonForm Slot where
  toJson
    | .empty => text "Empty"
    | .delegated d t =>
      tagged "Delegated" (record [("authority", toJson d), ("activated_at", toJson t)])
  ofJson? depth v := do
    let (tag, data) ← v.variant?
    if tag = "Empty" then
      if data.all isNull then some .empty else none
    else if tag = "Delegated" then
      let [d, t] ← (← data).fields? ["authority", "activated_at"] | none
      return .delegated (← required? (depth + 1) d) (← required? (depth + 1) t)
    else none

/-! ### Holders and caps -/

instance : JsonForm Holder where
  toJson
    | .wallet i => tagged "wallet" (toJson i)
    | .vault i => tagged "vault" (toJson i)
  ofJson? depth v := do
    let (tag, data) ← v.variant?
    if tag = "wallet" then return .wallet (← required? depth data)
    else if tag = "vault" then return .vault (← required? depth data)
    else none

instance : JsonForm Cap where
  toJson c := text c.label
  ofJson? _ := choice? Cap.all Cap.label

end DelegatedEscrow
