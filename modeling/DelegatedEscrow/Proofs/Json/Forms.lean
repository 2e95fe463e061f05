/-
DelegatedEscrow/Proofs/Json/Forms.lean

The forms of the library are lawful.

What wraps a single number is read back because the number is.  A record is, field by
field; a variant, once its tag has been told from the others.  The one form that is not
lawful at any depth is that of an instruction, which has a module of its own.
-/
import DelegatedEscrow.Json.Form.Account
import DelegatedEscrow.Json.Form.Event
import DelegatedEscrow.Json.Form.Limits
import DelegatedEscrow.Proofs.Json.Fields

namespace DelegatedEscrow

open Json JsonForm

/-! ### Keys, amounts and clock readings -/

instance : LawfulForm Identity where
  ofJson?_toJson depth i := by
    show (ofJson? depth (toJson i.bytes)).bind Identity.ofBytes? = some i
    rw [ofJson?_toJson, Option.bind_some, Identity.ofBytes?_bytes]

instance : LawfulForm Amount where
  ofJson?_toJson depth a := by
    show (ofJson? depth (toJson a.units)).map Amount.mk = some a
    rw [ofJson?_toJson, Option.map_some]

instance : LawfulForm Timestamp where
  ofJson?_toJson depth t := by
    show (ofJson? depth (toJson t.secs)).map Timestamp.mk = some t
    rw [ofJson?_toJson, Option.map_some]

/-! Numbers are not null, so they may be optional. -/

instance : LawfulForm (Option Amount) := .option fun _ => rfl

instance : LawfulForm (Option Timestamp) := .option fun _ => rfl

instance : LawfulForm (Option Seconds) := .option fun _ => rfl

/-! ### Choices -/

instance : LawfulForm Authority where
  ofJson?_toJson _ a := choice?_text (by decide) (by cases a <;> decide)

instance : LawfulForm Status where
  ofJson?_toJson _ s := choice?_text (by decide) (by cases s <;> decide)

/-! ### Records -/

instance : LawfulForm Mint where
  ofJson?_toJson depth m := by
    apply (fields?_zip_bind ["id", "decimals"] [toJson m.id, toJson m.decimals]
      (by decide) rfl _).trans
    simp

instance : LawfulForm LifetimeCaps where
  ofJson?_toJson depth c := by
    apply (fields?_zip_bind ["deposits", "traded"] [toJson c.deposits, toJson c.traded]
      (by decide) rfl _).trans
    simp

instance : LawfulForm BalanceChange where
  ofJson?_toJson depth c := by
    apply (fields?_zip_bind ["amount", "new_balance", "counterparty"]
      [toJson c.amount, toJson c.newBalance, toJson c.counterparty] (by decide) rfl _).trans
    simp

instance : LawfulForm Receipt where
  ofJson?_toJson depth r := by
    apply (fields?_zip_bind ["event_id", "escrow", "balance", "action_nonce"]
      [toJson r.eventId, toJson r.escrow, toJson r.balance, toJson r.nonce]
      (by decide) rfl _).trans
    simp

instance : LawfulForm Limits where
  ofJson?_toJson depth l := by
    apply (fields?_zip_bind Limits.fieldNames _ (by decide) rfl _).trans
    simp

/-! ### Variants -/

instance : LawfulForm Holder where
  ofJson?_toJson depth h := by
    cases h with
    | wallet i =>
      show (required? depth (some (toJson i)) >>= fun i => some (Holder.wallet i)) = _
      rw [required?_toJson]
      rfl
    | vault i =>
      show (required? depth (some (toJson i)) >>= fun i => some (Holder.vault i)) = _
      rw [required?_toJson]
      rfl

instance : LawfulForm Slot where
  ofJson?_toJson depth s := by
    cases s with
    | empty => rfl
    | delegated d t =>
      have fields := fields?_zip ["authority", "activated_at"] [toJson d, toJson t]
        (by decide) rfl
      show ofJson? depth (tagged "Delegated"
        (record (["authority", "activated_at"].zip [toJson d, toJson t]))) = _
      simp only [ofJson?, variant?_tagged, fields, Option.bind_eq_bind, Option.bind_some]
      simp

instance : LawfulForm Account where
  ofJson?_toJson depth a := by
    apply (fields?_zip_bind Account.fieldNames _ (by decide) rfl _).trans
    simp

namespace Payload

/-- A variant with data is told by its tag. -/
theorem ofJson?_tagged {depth : Nat} {tag : String} {data : Json} (h : tag ≠ "Paused")
    (h' : tag ≠ "Unpaused") :
    ofJson? depth (tagged tag data) = ofTagged? (depth + 1) tag data := by
  simp only [ofJson?, variant?_tagged, Option.bind_eq_bind, Option.bind_some, if_neg h,
    if_neg h']

theorem ofTagged?_flow (depth : Nat) (flow : Flow) (change : BalanceChange) :
    ofTagged? depth flow.tag (toJson change) = some (.funds flow change) := by
  have found : Flow.all.find? (fun f => f.tag = flow.tag) = some flow :=
    find?_tag (by decide) (by cases flow <;> decide)
  have reads : ofTagged? depth flow.tag (toJson change) =
      (Flow.all.find? fun f => f.tag = flow.tag).bind fun f =>
        (ofJson? depth (toJson change)).bind fun c => some (.funds f c) := by
    cases flow <;> rfl
  rw [reads, found, Option.bind_some, ofJson?_toJson, Option.bind_some]

instance : LawfulForm Payload where
  ofJson?_toJson depth p := by
    cases p with
    | paused | unpaused => rfl
    | opened mint ceiling =>
      apply (ofJson?_tagged (by decide) (by decide)).trans
      apply (fields?_zip_bind ["token_mint", "max_balance"] [toJson mint, toJson ceiling]
        (by decide) rfl _).trans
      simp
    | lifetimeSet secs =>
      apply (ofJson?_tagged (by decide) (by decide)).trans
      apply (fields?_zip_bind ["max_lifetime_secs"] [toJson secs] (by decide) rfl _).trans
      simp
    | closed swept =>
      apply (ofJson?_tagged (by decide) (by decide)).trans
      apply (fields?_zip_bind ["dust_swept"] [toJson swept] (by decide) rfl _).trans
      simp
    | delegated a d t =>
      apply (ofJson?_tagged (by decide) (by decide)).trans
      apply (fields?_zip_bind ["kind", "authority", "usable_at"]
        [toJson a, toJson d, toJson t] (by decide) rfl _).trans
      simp
    | revoked a d =>
      apply (ofJson?_tagged (by decide) (by decide)).trans
      apply (fields?_zip_bind ["kind", "authority"] [toJson a, toJson d]
        (by decide) rfl _).trans
      simp
    | funds flow change =>
      have other : ∀ flow : Flow, flow.tag ≠ "Paused" ∧ flow.tag ≠ "Unpaused" := by
        intro flow
        cases flow <;> decide
      apply (ofJson?_tagged (other flow).1 (other flow).2).trans
      exact ofTagged?_flow _ flow change

end Payload

instance : LawfulForm Event where
  ofJson?_toJson depth e := by
    apply (fields?_zip_bind ["id", "timestamp", "escrow", "nonce", "payload"]
      [toJson e.id, toJson e.time, toJson e.escrow, toJson e.nonce, toJson e.payload]
      (by decide) rfl _).trans
    simp

end DelegatedEscrow
