/-
DelegatedEscrow/Proofs/Control.lean

What an accepted action does to the part of a record that is not money: the
status, the two slots, the moment of the last pause and the lifetime.  Each of
the four is a small machine of its own, driven by the actions:

* `Action.statusAfter`   pauses, unpauses and closes;
* `Action.slotAfter`     fills a slot with a delegate armed now, or empties it;
* `Action.pausedAtAfter` notes when a pause begins;
* `Action.lifetimeAfter` sets the lifetime, where zero is none.

`Account.Control` says that a record follows these machines and what an action
needs for it: the signer holds the role, the escrow is open, and a paused one
only lets the owner's way out through.  `Action.stage_control` is the one pass
over the eleven actions; histories of an escrow are read off the machines.
-/
import DelegatedEscrow.Proofs.Rules

namespace DelegatedEscrow

/-! ### The machines -/

namespace Action

/-- The status that an action leaves behind. -/
def statusAfter : Action → Status → Status
  | pause, _ => .paused
  | unpause, _ => .active
  | close, _ => .closed
  | _, before => before

/-- The slot of `k` that an action at `now` leaves behind. -/
def slotAfter (now : Timestamp) (k : Authority) : Action → Slot → Slot
  | .delegate j d, before => if j = k then .delegated d now else before
  | .revoke j, before => if j = k then .empty else before
  | _, before => before

/-- The moment of the last pause, after an action at `now`. -/
def pausedAtAfter (now : Timestamp) : Action → Option Timestamp → Option Timestamp
  | pause, _ => some now
  | _, before => before

/-- The lifetime that an action leaves behind. -/
def lifetimeAfter : Action → Option Seconds → Option Seconds
  | setLifetime secs, _ => if 0 < secs then some secs else none
  | _, before => before

/-- What a paused escrow still lets through. -/
def PassesPause : Action → Prop
  | emergencyWithdraw _ | unpause | close => True
  | _ => False

/-- What needs both slots to be empty: the ways in which the owner takes funds out. -/
def NeedsUndelegated : Action → Prop
  | withdraw _ | emergencyWithdraw _ | close => True
  | _ => False

/-! How a machine can have got to where it is. -/

variable {action : Action} {now start : Timestamp} {k : Authority} {d : Identity} {s : Slot}
variable {before : Status}

theorem slotAfter_eq_delegated (h : action.slotAfter now k s = .delegated d start) :
    (action = .delegate k d ∧ start = now) ∨ (s = .delegated d start ∧ action ≠ .revoke k) := by
  cases action with
  | delegate j e =>
    rw [slotAfter] at h
    split at h
    · next same =>
      obtain ⟨rfl, rfl⟩ := Slot.delegated.inj h
      exact .inl ⟨by rw [same], rfl⟩
    · exact .inr ⟨h, by simp⟩
  | revoke j =>
    rw [slotAfter] at h
    split at h
    · cases h
    · next other => exact .inr ⟨h, fun same => other (Action.revoke.inj same)⟩
  | _ => exact .inr ⟨h, by simp⟩

theorem statusAfter_eq_active (h : action.statusAfter before = .active) :
    action = .unpause ∨ (before = .active ∧ action ≠ .pause) := by
  cases action with
  | unpause => exact .inl rfl
  | pause | close => cases h
  | _ => exact .inr ⟨h, by simp⟩

theorem statusAfter_eq_paused (h : action.statusAfter before = .paused) :
    action = .pause ∨ (before = .paused ∧ action ≠ .pause ∧ action ≠ .unpause) := by
  cases action with
  | pause => exact .inl rfl
  | unpause | close => cases h
  | _ => exact .inr ⟨h, by simp, by simp⟩

theorem statusAfter_close_of_ne (h : action.statusAfter before ≠ .closed) : action ≠ .close := by
  rintro rfl
  exact h rfl

theorem pausedAtAfter_of_ne {p : Option Timestamp} (other : action ≠ .pause) :
    action.pausedAtAfter now p = p := by
  cases action with
  | pause => exact absurd rfl other
  | _ => rfl

/-- What a paused escrow lets through is up to its owner. -/
theorem role_of_passesPause (passes : action.PassesPause) : action.role = .owner := by
  cases action with
  | collectFee amount nonce => exact passes.elim
  | trade amount nonce deadline => exact passes.elim
  | _ => rfl

end Action

/-! ### Records follow the machines -/

theorem Slot.eq_delegated_of_delegate? {s : Slot} {d : Identity}
    (taken : s.delegate? = some d) : ∃ start, s = .delegated d start := by
  cases s with
  | empty => cases taken
  | delegated e start =>
    obtain rfl : e = d := Option.some.inj taken
    exact ⟨start, rfl⟩

namespace Account

/-- The signer is the one that a role asks for. -/
def HeldBy (a : Account) (signer : Identity) : Role → Prop
  | .owner => signer = a.owner
  | .authority k => (a.slot k).delegate? = some signer

/-- The part of an accepted action that is not about money. -/
structure Control (s : Setting) (signer : Identity) (a : Account) (action : Action)
    (t : Transition) : Prop where
  status : t.account.status = action.statusAfter a.status
  slot : ∀ k, t.account.slot k = action.slotAfter s.now k (a.slot k)
  pausedAt : t.account.pausedAt = action.pausedAtAfter s.now a.pausedAt
  lifetime : t.account.lifetime = action.lifetimeAfter a.lifetime
  signed : a.HeldBy signer action.role
  isOpen : a.status ≠ .closed
  paused : a.status = .paused → action.PassesPause
  undelegated : action.NeedsUndelegated → ¬ a.Delegated

variable {a b : Account}

theorem slot_congr (platform : b.platform = a.platform) (trading : b.trading = a.trading)
    (k : Authority) : b.slot k = a.slot k := by
  cases k
  · exact platform
  · exact trading

/-- An active escrow is open, and nothing has to be shown for a paused one. -/
theorem active_cases {p : Prop} (active : a.status = .active) :
    a.status ≠ .closed ∧ (a.status = .paused → p) := by
  rw [active]
  exact ⟨by simp, nofun⟩

end Account

open Account in
theorem Action.stage_control {s : Setting} {signer : Identity} {a : Account} {action : Action}
    {t : Transition} (h : action.stage s signer a = .ok t) : Control s signer a action t := by
  cases action with
  | deposit amount =>
    obtain ⟨owns, active, -, -, balance, -, -, deposited, -, -, rfl⟩ := deposit_eq_ok_iff.1 h
    obtain ⟨isOpen, paused⟩ := active_cases active
    exact ⟨rfl, slot_congr rfl rfl, rfl, rfl, owns, isOpen, paused, nofun⟩
  | withdraw amount =>
    obtain ⟨owns, active, taken⟩ := withdraw_eq_ok_iff.1 h
    obtain ⟨-, free, balance, -, withdrawn, -, rfl⟩ := takeBack_eq_ok_iff.1 taken
    obtain ⟨isOpen, paused⟩ := active_cases active
    exact ⟨rfl, slot_congr rfl rfl, rfl, rfl, owns, isOpen, paused, fun _ => free⟩
  | emergencyWithdraw amount =>
    obtain ⟨owns, paused, taken⟩ := emergencyWithdraw_eq_ok_iff.1 h
    obtain ⟨-, free, balance, -, withdrawn, -, rfl⟩ := takeBack_eq_ok_iff.1 taken
    have isOpen : a.status ≠ .closed := by simp [paused]
    exact ⟨rfl, slot_congr rfl rfl, rfl, rfl, owns, isOpen, fun _ => trivial,
      fun _ => free⟩
  | collectFee amount nonce =>
    obtain ⟨spendable, -, balance, -, fees, -, -, rfl⟩ := collectFee_eq_ok_iff.1 h
    obtain ⟨active, taken, -⟩ := requireSpendable_eq_ok_iff.1 spendable
    obtain ⟨isOpen, paused⟩ := active_cases active
    exact ⟨rfl, slot_congr rfl rfl, rfl, rfl, taken, isOpen, paused, nofun⟩
  | trade amount nonce deadline =>
    obtain ⟨spendable, -, -, traded, -, -, balance, -, -, rfl⟩ := trade_eq_ok_iff.1 h
    obtain ⟨active, taken, -⟩ := requireSpendable_eq_ok_iff.1 spendable
    obtain ⟨isOpen, paused⟩ := active_cases active
    exact ⟨rfl, slot_congr rfl rfl, rfl, rfl, taken, isOpen, paused, nofun⟩
  | delegate j d =>
    obtain ⟨owns, active, -, -, -, rfl⟩ := delegate_eq_ok_iff.1 h
    obtain ⟨isOpen, paused⟩ := active_cases active
    refine ⟨?_, fun k => slot_setSlot .., ?_, ?_, owns, isOpen, paused, nofun⟩ <;>
      cases j <;> rfl
  | revoke j =>
    obtain ⟨owns, active, d, -, rfl⟩ := revoke_eq_ok_iff.1 h
    obtain ⟨isOpen, paused⟩ := active_cases active
    refine ⟨?_, fun k => slot_setSlot .., ?_, ?_, owns, isOpen, paused, nofun⟩ <;>
      cases j <;> rfl
  | pause =>
    obtain ⟨owns, active, rfl⟩ := pause_eq_ok_iff.1 h
    obtain ⟨isOpen, paused⟩ := active_cases active
    exact ⟨rfl, slot_congr rfl rfl, rfl, rfl, owns, isOpen, paused, nofun⟩
  | unpause =>
    obtain ⟨owns, paused, -, rfl⟩ := unpause_eq_ok_iff.1 h
    have isOpen : a.status ≠ .closed := by simp [paused]
    exact ⟨rfl, slot_congr rfl rfl, rfl, rfl, owns, isOpen, fun _ => trivial, nofun⟩
  | setLifetime secs =>
    obtain ⟨owns, active, -, rfl⟩ := setLifetime_eq_ok_iff.1 h
    obtain ⟨isOpen, paused⟩ := active_cases active
    exact ⟨rfl, slot_congr rfl rfl, rfl, rfl, owns, isOpen, paused, nofun⟩
  | close =>
    obtain ⟨isOpen, owns, ⟨-, free⟩, withdrawn, -, rfl⟩ := close_eq_ok_iff.1 h
    exact ⟨rfl, slot_congr rfl rfl, rfl, rfl, owns, isOpen, fun _ => trivial,
      fun _ => free⟩

end DelegatedEscrow
