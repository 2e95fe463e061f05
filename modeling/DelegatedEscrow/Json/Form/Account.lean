/-
DelegatedEscrow/Json/Form/Account.lean

The JSON form of the record of an escrow.
-/
import DelegatedEscrow.Account
import DelegatedEscrow.Json.Form.Values

namespace DelegatedEscrow

open Json JsonForm

instance : JsonForm Status where
  toJson s := text s.label
  ofJson? _ := choice? Status.all Status.label

instance : JsonForm LifetimeCaps where
  toJson c := record [("deposits", toJson c.deposits), ("traded", toJson c.traded)]
  ofJson? depth v := do
    let [deposits, traded] ← v.fields? ["deposits", "traded"] | none
    return ⟨← optional? depth deposits, ← optional? depth traded⟩

namespace Account

/-- The names of the fields, in the order in which they are written. -/
def fieldNames : List String :=
  ["owner", "token_mint", "platform", "trading", "status", "balance", "max_balance",
    "lifetime_limits", "max_lifetime", "created_at", "last_paused_at", "action_nonce",
    "total_deposited", "total_withdrawn", "total_fees_paid", "total_traded"]

instance : JsonForm Account where
  toJson a :=
    record (fieldNames.zip
      [toJson a.owner, toJson a.mint, toJson a.platform, toJson a.trading, toJson a.status,
        toJson a.balance, toJson a.ceiling, toJson a.caps, toJson a.lifetime,
        toJson a.createdAt, toJson a.pausedAt, toJson a.nonce, toJson a.totals.deposited,
        toJson a.totals.withdrawn, toJson a.totals.fees, toJson a.totals.traded])
  ofJson? depth v := do
    let [owner, mint, platform, trading, status, balance, ceiling, caps, lifetime, createdAt,
      pausedAt, nonce, deposited, withdrawn, fees, traded] ← v.fields? fieldNames | none
    return {
      owner := ← required? depth owner
      mint := ← required? depth mint
      platform := ← required? depth platform
      trading := ← required? depth trading
      status := ← required? depth status
      balance := ← required? depth balance
      ceiling := ← required? depth ceiling
      caps := ← required? depth caps
      lifetime := ← optional? depth lifetime
      createdAt := ← required? depth createdAt
      pausedAt := ← optional? depth pausedAt
      nonce := ← required? depth nonce
      totals := {
        deposited := ← required? depth deposited
        withdrawn := ← required? depth withdrawn
        fees := ← required? depth fees
        traded := ← required? depth traded } }

end Account

end DelegatedEscrow
