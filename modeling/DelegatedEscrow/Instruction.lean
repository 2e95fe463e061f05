/-
DelegatedEscrow/Instruction.lean

What can be asked of the ledger.  One instruction creates the escrow of its
signer; every other one names an escrow and an action on it.

A signature has been verified by the time an instruction arrives here.  All that
is left to ask is whether the signer is the one that the action requires.
-/
import DelegatedEscrow.Account

namespace DelegatedEscrow

/-- What can be done to an escrow. -/
inductive Action where
  | deposit (amount : Amount)
  | withdraw (amount : Amount)
  | emergencyWithdraw (amount : Amount)
  | collectFee (amount : Amount) (nonce : Nonce)
  | trade (amount : Amount) (nonce : Nonce) (deadline : Timestamp)
  | delegate (authority : Authority) (delegate : Identity)
  | revoke (authority : Authority)
  | pause
  | unpause
  | setLifetime (secs : Seconds)
  | close
deriving DecidableEq, Repr

namespace Action

/-- The name of an action. -/
def name : Action → String
  | deposit _ => "deposit"
  | withdraw _ => "withdraw"
  | emergencyWithdraw _ => "emergency_withdraw"
  | collectFee .. => "platform_fee_withdraw"
  | trade .. => "trade_withdraw"
  | delegate .. => "delegate"
  | revoke _ => "revoke"
  | pause => "pause"
  | unpause => "unpause"
  | setLifetime _ => "set_max_lifetime"
  | close => "close"

/-- Who has to sign. -/
def role : Action → Role
  | collectFee .. => .authority .platform
  | trade .. => .authority .trading
  | _ => .owner

/-- The nonce presented.  Only a spending by a delegate presents one. -/
def nonce? : Action → Option Nonce
  | collectFee _ n | trade _ n _ => some n
  | _ => none

end Action

/-- What can be asked of the ledger. -/
inductive Instruction where
  /-- Creates the escrow of the signer.  A ceiling of zero asks for the default. -/
  | create (mint : Mint) (ceiling : Amount) (caps : LifetimeCaps)
  /-- Acts on the escrow of an owner. -/
  | act (escrow : Identity) (action : Action)
deriving DecidableEq, Repr

namespace Instruction

/-- The name of an instruction. -/
def name : Instruction → String
  | create .. => "initialize"
  | act _ a => a.name

/-- Who has to sign. -/
def role : Instruction → Role
  | create .. => .owner
  | act _ a => a.role

/-- The nonce presented, if any. -/
def nonce? : Instruction → Option Nonce
  | create .. => none
  | act _ a => a.nonce?

end Instruction

/-- An instruction and who signed it. -/
structure Signed where
  signer : Identity
  instruction : Instruction
deriving DecidableEq, Repr

/-- The owner of the escrow that an instruction is about. -/
def Signed.target (s : Signed) : Identity :=
  match s.instruction with
  | .create .. => s.signer
  | .act escrow _ => escrow

end DelegatedEscrow
