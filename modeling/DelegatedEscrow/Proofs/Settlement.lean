/-
DelegatedEscrow/Proofs/Settlement.lean

Where record and custody meet.  When the transition of an action is settled, the
vault of the escrow follows the balance on record, and the wallet of the signer
makes up for it:

    custody after + (old record at the vault) + (new record at the wallet)
      = custody before + (new record at the vault) + (old record at the wallet)

for every holder and every token (`settle_entries`).  At the vault this is exact
backing; at every other holder but the signer's wallet it says that nothing
changes.
-/
import DelegatedEscrow.Proofs.Effects
import DelegatedEscrow.Proofs.Transfers

namespace DelegatedEscrow

namespace Transition

variable {t : Transition} {source target : Holder} {amount : Amount} {c d : Custody}
variable {f : CustodyFault}

theorem settle_of_none (h : t.movement = none) (c : Custody) : t.settle c = (c, .ok ()) := by
  rw [settle, h]

theorem settle_of_some (h : t.movement = some ⟨source, target, amount⟩) (c : Custody) :
    t.settle c = c.transfer source target t.account.mint amount := by
  rw [settle, h]

theorem settle_error (failed : t.settle c = (d, .error f)) :
    (∃ reason, f = .rejected reason ∧ c.armed = some reason ∧ d = { c with armed := none }) ∨
      ((∀ reason, f ≠ .rejected reason) ∧ c.armed = none ∧ d = c) := by
  rcases e : t.movement with - | ⟨source, target, amount⟩
  · rw [settle_of_none e] at failed
    cases failed
  · rw [settle_of_some e] at failed
    exact Custody.transfer_error failed

/-- A transition that can be settled moves nothing, or by one transfer. -/
theorem settle_ok_cases (settled : t.settle c = (d, .ok ())) :
    (t.movement = none ∧ d = c) ∨
      ∃ source target amount, t.movement = some ⟨source, target, amount⟩ ∧
        c.transfer source target t.account.mint amount = (d, .ok ()) := by
  rcases e : t.movement with - | ⟨source, target, amount⟩
  · rw [settle_of_none e] at settled
    cases settled
    exact .inl ⟨rfl, rfl⟩
  · rw [settle_of_some e] at settled
    exact .inr ⟨source, target, amount, rfl, settled⟩

/-- Tokens that could not be moved are where they were. -/
theorem balance_of_settle_error (failed : t.settle c = (d, .error f)) (k : Holder)
    (token : Identity) : d.balance k token = c.balance k token := by
  rcases settle_error failed with ⟨_, -, -, rfl⟩ | ⟨-, -, rfl⟩ <;> rfl

/-- While no failure is armed, custody that refuses stays as it is. -/
theorem settle_error_of_unarmed (unarmed : c.armed = none) (failed : t.settle c = (d, .error f)) :
    d = c := by
  rcases settle_error failed with ⟨_, -, armed, -⟩ | ⟨-, -, kept⟩
  · cases unarmed.symm.trans armed
  · exact kept

theorem transfers_settle (settled : t.settle c = (d, .ok ())) :
    d.transfers = c.transfers + if t.movement = none then 0 else 1 := by
  rcases settle_ok_cases settled with ⟨e, rfl⟩ | ⟨_, _, _, e, moved⟩
  · rw [if_pos e, UInt64.add_zero]
  · rw [if_neg (by simp [e])]
    exact Custody.transfers_transfer moved

theorem armed_settle (unarmed : c.armed = none) (settled : t.settle c = (d, .ok ())) :
    d.armed = none := by
  rcases settle_ok_cases settled with ⟨-, rfl⟩ | ⟨_, _, _, -, moved⟩
  · exact unarmed
  · exact Custody.armed_transfer moved

/-- What a transition takes from a purse. -/
def debit (t : Transition) (k : Holder) (token : Identity) : Nat :=
  (t.movement.map fun m => Custody.entry m.source t.account.mint.id m.amount k token).getD 0

/-- What a transition gives to a purse. -/
def credit (t : Transition) (k : Holder) (token : Identity) : Nat :=
  (t.movement.map fun m => Custody.entry m.target t.account.mint.id m.amount k token).getD 0

/-- **Double entry** for a transition that is settled. -/
theorem balance_settle (settled : t.settle c = (d, .ok ())) (k : Holder) (token : Identity) :
    (d.balance k token).toNat + t.debit k token =
      (c.balance k token).toNat + t.credit k token := by
  rcases settle_ok_cases settled with ⟨e, rfl⟩ | ⟨source, target, amount, e, moved⟩
  · rw [debit, credit, e]
    rfl
  · rw [debit, credit, e]
    exact Custody.transfer_entries moved k token

end Transition

namespace Account.Books

open Custody Transition

variable {signer : Identity} {a : Account} {action : Action} {t : Transition} {c d : Custody}
variable {f : CustodyFault}

theorem settle_entries (books : Books signer a action t)
    (mint : t.account.mint = a.mint) (settled : t.settle c = (d, .ok ())) (k : Holder)
    (token : Identity) :
    (d.balance k token).toNat + entry (.vault a.owner) a.mint.id a.balance k token +
        entry (.wallet signer) a.mint.id t.account.balance k token =
      (c.balance k token).toNat + entry (.vault a.owner) a.mint.id t.account.balance k token +
        entry (.wallet signer) a.mint.id a.balance k token := by
  cases books with
  | still movement balance _ =>
    rw [settle_of_none movement] at settled
    cases settled
    rw [balance]
  | paidIn amount _ _ movement balance _ _ _ =>
    rw [settle_of_some movement, mint] at settled
    have moved := transfer_entries settled k token
    have atVault := entry_add balance (.vault a.owner) a.mint.id k token
    have atWallet := entry_add balance (.wallet signer) a.mint.id k token
    omega
  | paidOut amount _ movement balance _ _ =>
    rw [settle_of_some movement, mint] at settled
    have moved := transfer_entries settled k token
    have atVault := entry_add balance.symm (.vault a.owner) a.mint.id k token
    have atWallet := entry_add balance.symm (.wallet signer) a.mint.id k token
    omega

/-- The vault of the escrow follows the balance on record. -/
theorem settle_vault (books : Books signer a action t) (mint : t.account.mint = a.mint)
    (settled : t.settle c = (d, .ok ())) (owner token : Identity) :
    (d.balance (.vault owner) token).toNat +
        entry (.vault a.owner) a.mint.id a.balance (.vault owner) token =
      (c.balance (.vault owner) token).toNat +
        entry (.vault a.owner) a.mint.id t.account.balance (.vault owner) token := by
  have balanced := books.settle_entries mint settled (.vault owner) token
  have apart : Holder.wallet signer ≠ .vault owner := by simp
  rwa [entry_of_ne apart, entry_of_ne apart] at balanced

/-- If the vault holds at least the balance on record, only a deposit can fail
for want of tokens. -/
theorem settle_insufficient (books : Books signer a action t)
    (mint : t.account.mint = a.mint)
    (backed : a.balance.toNat ≤ (c.balance (.vault a.owner) a.mint.id).toNat)
    {holder : Holder} {available requested : Amount}
    (failed : t.settle c = (d, .error (.insufficientFunds holder available requested))) :
    ∃ amount, action = .deposit amount := by
  cases books with
  | still movement _ _ =>
    rw [settle_of_none movement] at failed
    cases failed
  | paidIn amount deposits _ _ _ _ _ _ => exact ⟨amount, deposits⟩
  | paidOut amount _ movement balance _ _ =>
    -- The vault has the amount, and the wallet can only be too full.
    exfalso
    rw [settle_of_some movement, mint] at failed
    rcases transfer_cases c (.vault a.owner) (.wallet signer) a.mint amount with
      ⟨_, -, e⟩ | ⟨f, -, refused, e⟩ | ⟨_, -, -, e⟩
    · rw [failed] at e
      cases e
    · rw [failed] at e
      cases e
      rcases move_eq_error_iff.1 refused with ⟨short, -⟩ | ⟨-, -, -, e⟩
      · omega
      · cases e
    · rw [failed] at e
      cases e

end Account.Books

end DelegatedEscrow
