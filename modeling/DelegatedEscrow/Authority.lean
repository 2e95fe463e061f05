/-
DelegatedEscrow/Authority.lean

The owner of an escrow can hand out two authorities: the platform collects
recurring fees, and the trading service pulls funds for trades.  Each has one
slot, which is empty or holds a single delegate and the moment it was armed.

A delegate may spend once its time-lock has elapsed; at the last second of the
lock, with nothing remaining, the slot is mature.
-/
import DelegatedEscrow.Identity
import DelegatedEscrow.Timestamp

namespace DelegatedEscrow

/-- What an owner can delegate. -/
inductive Authority where
  /-- Collects subscription fees. -/
  | platform
  /-- Takes funds for trades. -/
  | trading
deriving DecidableEq, Repr

namespace Authority

/-- Every authority. -/
def all : List Authority := [platform, trading]

def label : Authority → String
  | platform => "platform"
  | trading => "trading"

end Authority

/-- The place of one authority in an escrow. -/
inductive Slot where
  | empty
  | delegated (delegate : Identity) (armedAt : Timestamp)
deriving DecidableEq, Repr

namespace Slot

/-- The identity in the slot. -/
def delegate? : Slot → Option Identity
  | empty => none
  | delegated d _ => some d

/-- The moment the slot was armed. -/
def armedAt? : Slot → Option Timestamp
  | empty => none
  | delegated _ t => some t

/-- What is left at `now` of a time-lock of length `age`. -/
def lockRemaining? (s : Slot) (now : Timestamp) (age : Seconds) : Option Seconds :=
  s.armedAt?.map fun start => Timestamp.remaining start now age

/-- A delegate is in the slot, and its time-lock has elapsed. -/
def Mature (s : Slot) (now : Timestamp) (age : Seconds) : Prop :=
  s.lockRemaining? now age = some 0

instance (s : Slot) (now : Timestamp) (age : Seconds) : Decidable (s.Mature now age) :=
  inferInstanceAs (Decidable (_ = _))

end Slot

/-- The number that a spending by a delegate presents.  Each is spent once, in
order from zero, whichever delegate spends it. -/
abbrev Nonce := UInt64

/-! ### Roles -/

/-- Who has to sign. -/
inductive Role where
  | owner
  | authority (a : Authority)
deriving DecidableEq, Repr

/-- A role in words. -/
def Role.text : Role → String
  | owner => "owner"
  | authority a => a.label ++ " authority"

end DelegatedEscrow
