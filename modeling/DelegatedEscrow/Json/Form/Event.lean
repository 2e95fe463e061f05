/-
DelegatedEscrow/Json/Form/Event.lean

The JSON forms of events and receipts.
-/
import DelegatedEscrow.Json.Form.Values
import DelegatedEscrow.Ledger

namespace DelegatedEscrow

open Json JsonForm

instance : JsonForm BalanceChange where
  toJson c :=
    record [("amount", toJson c.amount), ("new_balance", toJson c.newBalance),
      ("counterparty", toJson c.counterparty)]
  ofJson? depth v := do
    let [amount, newBalance, counterparty] ←
      v.fields? ["amount", "new_balance", "counterparty"] | none
    return {
      amount := ← required? depth amount
      newBalance := ← required? depth newBalance
      counterparty := ← required? depth counterparty }

namespace Flow

/-- The tag of a path. -/
def tag : Flow → String
  | deposit => "Deposit"
  | withdrawal => "Withdrawal"
  | emergencyWithdrawal => "EmergencyWithdrawal"
  | subscriptionFee => "SubscriptionFee"
  | tradeWithdrawal => "TradeWithdrawal"

/-- Every path. -/
def all : List Flow :=
  [deposit, withdrawal, emergencyWithdrawal, subscriptionFee, tradeWithdrawal]

end Flow

namespace Payload

/-- Reads the data behind a tag, which lies within `depth` arrays and objects. -/
def ofTagged? (depth : Nat) (tag : String) (data : Json) : Option Payload :=
  match tag with
  | "Initialized" => do
    let [mint, ceiling] ← data.fields? ["token_mint", "max_balance"] | none
    return .opened (← required? depth mint) (← required? depth ceiling)
  | "LifetimeUpdated" => do
    let [secs] ← data.fields? ["max_lifetime_secs"] | none
    return .lifetimeSet (← required? depth secs)
  | "Closed" => do
    let [swept] ← data.fields? ["dust_swept"] | none
    return .closed (← required? depth swept)
  | "AuthorityDelegated" => do
    let [a, d, t] ← data.fields? ["kind", "authority", "usable_at"] | none
    return .delegated (← required? depth a) (← required? depth d) (← required? depth t)
  | "AuthorityRevoked" => do
    let [a, d] ← data.fields? ["kind", "authority"] | none
    return .revoked (← required? depth a) (← required? depth d)
  | tag => do
    let flow ← Flow.all.find? fun f => f.tag = tag
    return .funds flow (← ofJson? depth data)

instance : JsonForm Payload where
  toJson
    | .opened mint ceiling =>
      tagged "Initialized"
        (record [("token_mint", toJson mint), ("max_balance", toJson ceiling)])
    | .paused => text "Paused"
    | .unpaused => text "Unpaused"
    | .lifetimeSet secs =>
      tagged "LifetimeUpdated" (record [("max_lifetime_secs", toJson secs)])
    | .closed swept => tagged "Closed" (record [("dust_swept", toJson swept)])
    | .delegated a d t =>
      tagged "AuthorityDelegated"
        (record [("kind", toJson a), ("authority", toJson d), ("usable_at", toJson t)])
    | .revoked a d =>
      tagged "AuthorityRevoked" (record [("kind", toJson a), ("authority", toJson d)])
    | .funds flow change => tagged flow.tag (toJson change)
  ofJson? depth v := do
    let (tag, data) ← v.variant?
    if tag = "Paused" then
      if data.all isNull then some .paused else none
    else if tag = "Unpaused" then
      if data.all isNull then some .unpaused else none
    else
      ofTagged? (depth + 1) tag (← data)

end Payload

instance : JsonForm Event where
  toJson e :=
    record [("id", toJson e.id), ("timestamp", toJson e.time), ("escrow", toJson e.escrow),
      ("nonce", toJson e.nonce), ("payload", toJson e.payload)]
  ofJson? depth v := do
    let [id, time, escrow, nonce, payload] ←
      v.fields? ["id", "timestamp", "escrow", "nonce", "payload"] | none
    return {
      id := ← required? depth id
      time := ← required? depth time
      escrow := ← required? depth escrow
      nonce := ← required? depth nonce
      payload := ← required? depth payload }

instance : JsonForm Receipt where
  toJson r :=
    record [("event_id", toJson r.eventId), ("escrow", toJson r.escrow),
      ("balance", toJson r.balance), ("action_nonce", toJson r.nonce)]
  ofJson? depth v := do
    let [eventId, escrow, balance, nonce] ←
      v.fields? ["event_id", "escrow", "balance", "action_nonce"] | none
    return {
      eventId := ← required? depth eventId
      escrow := ← required? depth escrow
      balance := ← required? depth balance
      nonce := ← required? depth nonce }

end DelegatedEscrow
