/-
DelegatedEscrow/Proofs/Effects.lean

What an accepted action does to the record of an escrow, seen from four sides:

* the terms fixed at its creation stay;
* money either stays, or one amount moves between the wallet of the signer and
  the vault and is booked under one total;
* only a close makes a record closed, and it leaves nothing behind;
* only the spending of a delegate advances the nonce, by one.

These four make up `Account.Effect`, and `Action.stage_effect` is the one pass
over the eleven actions that establishes them.  What holds of every reachable
record follows from it; no later proof goes through the actions again for one of
these facts.
-/
import DelegatedEscrow.Proofs.Rules

namespace DelegatedEscrow

namespace Totals

variable {totals : Totals} {raised : Amount} {n : Nat}

theorem outflow_withdrawn (h : raised.toNat = totals.withdrawn.toNat + n) :
    { totals with withdrawn := raised }.outflow = totals.outflow + n := by
  simp only [outflow, h]
  omega

theorem outflow_fees (h : raised.toNat = totals.fees.toNat + n) :
    { totals with fees := raised }.outflow = totals.outflow + n := by
  simp only [outflow, h]
  omega

theorem outflow_traded (h : raised.toNat = totals.traded.toNat + n) :
    { totals with traded := raised }.outflow = totals.outflow + n := by
  simp only [outflow, h]
  omega

end Totals

namespace Account

/-- Two records agree on what is fixed when an escrow is opened. -/
structure SameTerms (a b : Account) : Prop where
  owner : a.owner = b.owner
  mint : a.mint = b.mint
  ceiling : a.ceiling = b.ceiling
  caps : a.caps = b.caps
  createdAt : a.createdAt = b.createdAt

/-- The money of an escrow in one action: all of it stays, or a deposit is paid
into the vault, or an amount is paid out of it; and what is paid is booked. -/
inductive Books (signer : Identity) (a : Account) (action : Action) (t : Transition) : Prop
  | still (movement : t.movement = none) (balance : t.account.balance = a.balance)
      (totals : t.account.totals = a.totals)
  | paidIn (amount : Amount) (deposits : action = .deposit amount)
      (positive : 0 < amount.toNat)
      (movement : t.movement = some ⟨.wallet signer, .vault a.owner, amount⟩)
      (balance : t.account.balance.toNat = a.balance.toNat + amount.toNat)
      (within : t.account.balance ≤ a.ceiling)
      (deposited :
        t.account.totals.deposited.toNat = a.totals.deposited.toNat + amount.toNat)
      (outflow : t.account.totals.outflow = a.totals.outflow)
  | paidOut (amount : Amount) (positive : 0 < amount.toNat)
      (movement : t.movement = some ⟨.vault a.owner, .wallet signer, amount⟩)
      (balance : t.account.balance.toNat + amount.toNat = a.balance.toNat)
      (deposited : t.account.totals.deposited = a.totals.deposited)
      (outflow : t.account.totals.outflow = a.totals.outflow + amount.toNat)

/-- How an action that may present a nonce moves the one on record: a nonce that
is presented is the next one, which is then used up; otherwise nothing changes. -/
def Advances (before : Nonce) : Option Nonce → Nonce → Prop
  | none, after => after = before
  | some n, after => n = before ∧ after.toNat = before.toNat + 1

/-- The effect of an accepted action. -/
structure Effect (signer : Identity) (a : Account) (action : Action) (t : Transition) :
    Prop where
  terms : t.account.SameTerms a
  books : Books signer a action t
  /-- A record that is closed now was closed by this action, empty and without
  delegates. -/
  closed : t.account.status = .closed → t.account.balance = 0 ∧ ¬ t.account.Delegated
  nonce : Advances a.nonce action.nonce? t.account.nonce

/-- A nonce that can be spent has a successor in the word. -/
theorem toNat_succ_nonce {n : Nonce} (h : n ≠ UInt64.ofNat (UInt64.size - 1)) :
    (n + 1).toNat = n.toNat + 1 := by
  have spare : n.toNat ≠ UInt64.size - 1 := by
    intro last
    exact h (UInt64.toNat_inj.1 last)
  have below : n.toNat < UInt64.size := n.toNat_lt
  rw [UInt64.toNat_add]
  show (n.toNat + 1) % UInt64.size = _
  exact Nat.mod_eq_of_lt (by omega)

variable {s : Setting} {signer : Identity} {a : Account} {flow : Flow} {amount : Amount}
variable {action : Action} {t : Transition} {p : Payload}

/-- A record that stays in another status is not closed. -/
theorem closed_of_ne {status : Status} {q : Prop} (is : a.status = status)
    (other : status ≠ .closed) (closed : a.status = .closed) : q :=
  absurd (is.symm.trans closed) other

theorem advances_of_none {before after : Nonce} (silent : action.nonce? = none)
    (kept : after = before) : Advances before action.nonce? after := by
  rw [silent]
  exact kept

/-- Filling or emptying a slot of an active escrow. -/
theorem setSlot_effect {k : Authority} {slot : Slot} (active : a.status = .active)
    (silent : action.nonce? = none) :
    Effect signer a action (.silent (a.setSlot k slot) p) := by
  have nonce : Advances a.nonce action.nonce? a.nonce := advances_of_none silent rfl
  cases k
  · exact ⟨⟨rfl, rfl, rfl, rfl, rfl⟩, .still rfl rfl rfl, closed_of_ne active (by simp), nonce⟩
  · exact ⟨⟨rfl, rfl, rfl, rfl, rfl⟩, .still rfl rfl rfl, closed_of_ne active (by simp), nonce⟩

/-- Both withdrawals of the owner have the same effect. -/
theorem takeBack_effect {status : Status} (is : a.status = status) (other : status ≠ .closed)
    (silent : action.nonce? = none) (h : a.takeBack signer flow amount = .ok t) :
    Effect signer a action t := by
  obtain ⟨positive, -, balance, hb, withdrawn, hw, rfl⟩ := takeBack_eq_ok_iff.1 h
  refine ⟨⟨rfl, rfl, rfl, rfl, rfl⟩, ?_, closed_of_ne is other, advances_of_none silent rfl⟩
  exact .paidOut amount positive rfl hb rfl (Totals.outflow_withdrawn hw)

/-- A swept balance of zero is no payment: nothing moves and no total grows. -/
theorem close_books (h : a.close s signer = .ok t) : Books signer a action t := by
  obtain ⟨-, rfl, -, withdrawn, hw, rfl⟩ := close_eq_ok_iff.1 h
  by_cases empty : a.balance = 0
  · have same : withdrawn = a.totals.withdrawn := by
      rw [← Amount.toNat_inj, hw, empty, Amount.toNat_zero, Nat.add_zero]
    refine .still (if_pos empty) empty.symm ?_
    show { a.totals with withdrawn } = a.totals
    rw [same]
  · have positive : 0 < a.balance.toNat := by
      rw [Amount.eq_zero_iff] at empty
      omega
    exact .paidOut a.balance positive (if_neg empty) (by simp) rfl (Totals.outflow_withdrawn hw)

end Account

namespace Action

open Account

variable {s : Setting} {signer : Identity} {a : Account} {action : Action} {t : Transition}

theorem stage_effect (h : action.stage s signer a = .ok t) : Effect signer a action t := by
  cases action with
  | deposit amount =>
    obtain ⟨-, active, positive, -, balance, hb, within, deposited, hd, -, rfl⟩ :=
      deposit_eq_ok_iff.1 h
    refine ⟨⟨rfl, rfl, rfl, rfl, rfl⟩, ?_, closed_of_ne active (by simp), rfl⟩
    exact .paidIn amount rfl positive rfl hb within hd rfl
  | withdraw amount =>
    obtain ⟨-, active, taken⟩ := withdraw_eq_ok_iff.1 h
    exact takeBack_effect active (by simp) rfl taken
  | emergencyWithdraw amount =>
    obtain ⟨-, paused, taken⟩ := emergencyWithdraw_eq_ok_iff.1 h
    exact takeBack_effect paused (by simp) rfl taken
  | collectFee amount nonce =>
    obtain ⟨spendable, -, balance, hb, fees, hf, spare, rfl⟩ := collectFee_eq_ok_iff.1 h
    obtain ⟨active, -, positive, -, next⟩ := requireSpendable_eq_ok_iff.1 spendable
    refine ⟨⟨rfl, rfl, rfl, rfl, rfl⟩, ?_, closed_of_ne active (by simp), ?_⟩
    · exact .paidOut amount positive rfl hb rfl (Totals.outflow_fees hf)
    · exact ⟨next, toNat_succ_nonce spare⟩
  | trade amount nonce deadline =>
    obtain ⟨spendable, -, -, traded, ht, -, balance, hb, spare, rfl⟩ := trade_eq_ok_iff.1 h
    obtain ⟨active, -, positive, -, next⟩ := requireSpendable_eq_ok_iff.1 spendable
    refine ⟨⟨rfl, rfl, rfl, rfl, rfl⟩, ?_, closed_of_ne active (by simp), ?_⟩
    · exact .paidOut amount positive rfl hb rfl (Totals.outflow_traded ht)
    · exact ⟨next, toNat_succ_nonce spare⟩
  | delegate k d =>
    obtain ⟨-, active, -, -, -, rfl⟩ := delegate_eq_ok_iff.1 h
    exact setSlot_effect active rfl
  | revoke k =>
    obtain ⟨-, active, _, -, rfl⟩ := revoke_eq_ok_iff.1 h
    exact setSlot_effect active rfl
  | pause =>
    obtain ⟨-, -, rfl⟩ := pause_eq_ok_iff.1 h
    exact ⟨⟨rfl, rfl, rfl, rfl, rfl⟩, .still rfl rfl rfl, nofun, rfl⟩
  | unpause =>
    obtain ⟨-, -, -, rfl⟩ := unpause_eq_ok_iff.1 h
    exact ⟨⟨rfl, rfl, rfl, rfl, rfl⟩, .still rfl rfl rfl, nofun, rfl⟩
  | setLifetime secs =>
    obtain ⟨-, active, -, rfl⟩ := setLifetime_eq_ok_iff.1 h
    refine ⟨⟨rfl, rfl, rfl, rfl, rfl⟩, .still rfl rfl rfl, closed_of_ne active (by simp), rfl⟩
  | close =>
    have books : Books signer a .close t := close_books h
    obtain ⟨-, -, ⟨-, free⟩, _, -, rfl⟩ := close_eq_ok_iff.1 h
    exact ⟨⟨rfl, rfl, rfl, rfl, rfl⟩, books, fun _ => ⟨rfl, free⟩, rfl⟩

end Action

/-- A new escrow belongs to its owner, holds nothing, moves nothing and has spent
no nonce. -/
theorem Setting.create_effect {s : Setting} {owner : Identity} {mint : Mint} {ceiling : Amount}
    {caps : LifetimeCaps} {t : Transition} (h : s.create owner mint ceiling caps = .ok t) :
    t.account.owner = owner ∧ t.account.balance = 0 ∧ t.movement = none ∧
      t.account.nonce = 0 := by
  obtain ⟨-, -, granted, -, rfl⟩ := create_eq_ok_iff.1 h
  exact ⟨rfl, rfl, rfl, rfl⟩

end DelegatedEscrow
