/-
DelegatedEscrow/Event.lean

Every accepted instruction is announced by one event, which says what happened
to which escrow and when.  A refused instruction is not announced.
-/
import DelegatedEscrow.Authority
import DelegatedEscrow.Mint

namespace DelegatedEscrow

/-- Events are numbered from 1. -/
abbrev EventId := UInt64

/-- The paths by which funds enter and leave an open escrow. -/
inductive Flow where
  | deposit
  | withdrawal
  | emergencyWithdrawal
  | subscriptionFee
  | tradeWithdrawal
deriving DecidableEq, Repr

/-- The name of a path. -/
def Flow.label : Flow → String
  | deposit => "deposit"
  | withdrawal => "withdrawal"
  | emergencyWithdrawal => "emergency_withdrawal"
  | subscriptionFee => "subscription_fee"
  | tradeWithdrawal => "trade_withdrawal"

/-- A change of a balance. -/
structure BalanceChange where
  amount : Amount
  /-- The balance after the change. -/
  newBalance : Amount
  /-- Whose wallet supplied or received the tokens. -/
  counterparty : Identity
deriving DecidableEq, Repr

/-- What happened to an escrow. -/
inductive Payload where
  | opened (mint : Mint) (ceiling : Amount)
  | paused
  | unpaused
  | lifetimeSet (secs : Seconds)
  | closed (swept : Amount)
  | delegated (authority : Authority) (delegate : Identity) (usableAt : Timestamp)
  | revoked (authority : Authority) (delegate : Identity)
  | funds (flow : Flow) (change : BalanceChange)
deriving DecidableEq, Repr

namespace Payload

/-- The name of what happened. -/
def label : Payload → String
  | opened .. => "initialized"
  | paused => "paused"
  | unpaused => "unpaused"
  | lifetimeSet _ => "lifetime_updated"
  | closed _ => "closed"
  | delegated .. => "authority_delegated"
  | revoked .. => "authority_revoked"
  | funds flow _ => flow.label

/-- The change of the balance, where funds moved by a path of their own. -/
def change? : Payload → Option BalanceChange
  | funds _ change => some change
  | _ => none

/-- A slot was filled or emptied. -/
def isAuthorityChange : Payload → Bool
  | delegated .. | revoked .. => true
  | _ => false

end Payload

/-- The announcement of an accepted instruction. -/
structure Event where
  id : EventId
  time : Timestamp
  escrow : Identity
  /-- The nonce of the escrow afterwards. -/
  nonce : Nonce
  payload : Payload
deriving DecidableEq, Repr

end DelegatedEscrow
