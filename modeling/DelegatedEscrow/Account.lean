/-
DelegatedEscrow/Account.lean

The record of one escrow.  An owner has one escrow, which holds one token; it is
active, paused, or closed for good.  Besides its balance it keeps what has gone
in and out in total, the two slots of authority, and the nonce of the next
spending by a delegate.

Below the record stand the guards that instructions are made of.  Each asks one
question about the record and names the fault of a wrong answer.
-/
import DelegatedEscrow.Fault
import DelegatedEscrow.Mint

namespace DelegatedEscrow

/-- Where an escrow is in its life.  A closed escrow stays closed. -/
inductive Status where
  | active
  | paused
  | closed
deriving DecidableEq, Repr

namespace Status

/-- Every status. -/
def all : List Status := [active, paused, closed]

def label : Status → String
  | active => "Active"
  | paused => "Paused"
  | closed => "Closed"

end Status

/-- Caps on what an escrow may do in its whole life; `none` is no cap. -/
structure LifetimeCaps where
  deposits : Option Amount
  traded : Option Amount
deriving DecidableEq, Repr

/-- No caps. -/
def LifetimeCaps.unlimited : LifetimeCaps := ⟨none, none⟩

/-- What has gone in and out of an escrow, by path.  Totals never decrease. -/
structure Totals where
  deposited : Amount
  withdrawn : Amount
  fees : Amount
  traded : Amount
deriving DecidableEq, Repr

namespace Totals

def zero : Totals := ⟨0, 0, 0, 0⟩

/-- All that has gone out, by any path. -/
def outflow (t : Totals) : Nat := t.withdrawn.toNat + t.fees.toNat + t.traded.toNat

end Totals

/-- The record of one escrow. -/
structure Account where
  owner : Identity
  mint : Mint
  platform : Slot
  trading : Slot
  status : Status
  balance : Amount
  /-- The largest balance. -/
  ceiling : Amount
  caps : LifetimeCaps
  /-- How long after its creation the escrow expires; `none` and zero are never. -/
  lifetime : Option Seconds
  createdAt : Timestamp
  pausedAt : Option Timestamp
  nonce : Nonce
  totals : Totals
deriving DecidableEq, Repr

namespace Account

/-- A new escrow, without funds and without delegates. -/
def new (owner : Identity) (mint : Mint) (ceiling : Amount) (caps : LifetimeCaps)
    (now : Timestamp) : Account where
  owner
  mint
  platform := .empty
  trading := .empty
  status := .active
  balance := 0
  ceiling
  caps
  lifetime := none
  createdAt := now
  pausedAt := none
  nonce := 0
  totals := .zero

/-! ### Slots -/

/-- The slot of an authority. -/
def slot (a : Account) : Authority → Slot
  | .platform => a.platform
  | .trading => a.trading

/-- Replaces the slot of an authority. -/
def setSlot (a : Account) (k : Authority) (s : Slot) : Account :=
  match k with
  | .platform => { a with platform := s }
  | .trading => { a with trading := s }

/-- Some slot is taken. -/
def Delegated (a : Account) : Prop := a.platform ≠ .empty ∨ a.trading ≠ .empty

instance (a : Account) : Decidable a.Delegated := inferInstanceAs (Decidable (_ ∨ _))

theorem slot_setSlot (a : Account) (k j : Authority) (s : Slot) :
    (a.setSlot k s).slot j = if k = j then s else a.slot j := by
  cases k <;> cases j <;> rfl

/-! ### Time -/

/-- The escrow has outlived its lifetime. -/
def Expired (a : Account) (now : Timestamp) : Prop :=
  match a.lifetime with
  | none => False
  | some l => l ≠ 0 ∧ l < now.since a.createdAt

instance (a : Account) (now : Timestamp) : Decidable (a.Expired now) := by
  unfold Expired
  split <;> infer_instance

/-- What is left of the cooldown of the last pause. -/
def cooldownRemaining (a : Account) (now : Timestamp) (cooldown : Seconds) : Seconds :=
  match a.pausedAt with
  | none => 0
  | some start => Timestamp.remaining start now cooldown

/-! ### Guards -/

/-- The escrow is not closed. -/
def requireOpen (a : Account) : Except Fault Unit := require (a.status ≠ .closed) .closed

/-- The escrow is neither closed nor paused. -/
def requireActive (a : Account) : Except Fault Unit := do
  a.requireOpen
  require (a.status ≠ .paused) .paused

/-- The signer owns the escrow. -/
def requireOwner (a : Account) (signer : Identity) : Except Fault Unit :=
  require (signer = a.owner) (.unauthorized signer .owner)

/-- The signer is the delegate in the slot of `k`. -/
def requireDelegate (a : Account) (k : Authority) (signer : Identity) :
    Except Fault Unit := do
  let d ← demand (a.slot k).delegate? (.slotEmpty k)
  require (signer = d) (.unauthorized signer (.authority k))

/-- The signer is the delegate in the slot of `k`, and its time-lock has elapsed. -/
def requireMature (a : Account) (k : Authority) (signer : Identity) (now : Timestamp)
    (age : Seconds) : Except Fault Unit := do
  a.requireDelegate k signer
  let left ← demand ((a.slot k).lockRemaining? now age) (.slotEmpty k)
  require (left = 0) (.lockRunning k left)

/-- No slot is taken. -/
def requireUndelegated (a : Account) : Except Fault Unit :=
  require (¬ a.Delegated) .slotsTaken

/-- The escrow has not expired. -/
def requireUnexpired (a : Account) (now : Timestamp) : Except Fault Unit :=
  require (¬ a.Expired now) .expired

/-- The nonce presented is the next one. -/
def requireNonce (a : Account) (presented : Nonce) : Except Fault Unit :=
  require (presented = a.nonce) (.staleNonce a.nonce presented)

/-! ### Parts of effects -/

/-- Spends the nonce.  The last one of the word cannot be spent. -/
def spendNonce (a : Account) : Except Fault Account := do
  require (a.nonce ≠ UInt64.ofNat (UInt64.size - 1)) .overflow
  return { a with nonce := a.nonce + 1 }

/-- The balance after paying out an amount. -/
def debited (a : Account) (amount : Amount) : Except Fault Amount :=
  demand (a.balance.sub? amount) (.insufficientBalance amount a.balance)

end Account

end DelegatedEscrow
