/-
DelegatedEscrow/Fault.lean

Why an instruction is refused.  A fault carries what its message tells; the
message is made in one place, `Fault.message`.
-/
import DelegatedEscrow.Authority
import DelegatedEscrow.Calendar
import DelegatedEscrow.Custody

namespace DelegatedEscrow

/-- The caps on amounts. -/
inductive Cap where
  /-- On the balance of one escrow. -/
  | balance
  /-- On the balance that an escrow may ask for. -/
  | ceiling
  /-- On one subscription fee. -/
  | fee
  /-- On one trade. -/
  | trade
  /-- On all deposits of one escrow together. -/
  | lifetimeDeposits
  /-- On all trades of one escrow together. -/
  | lifetimeTraded
deriving DecidableEq, Repr

namespace Cap

/-- Every cap. -/
def all : List Cap := [balance, ceiling, fee, trade, lifetimeDeposits, lifetimeTraded]

/-- The name of a cap. -/
def label : Cap → String
  | balance => "MaxBalance"
  | ceiling => "AllowedBalance"
  | fee => "SubscriptionFee"
  | trade => "TransactionAmount"
  | lifetimeDeposits => "LifetimeDeposits"
  | lifetimeTraded => "LifetimeTraded"

end Cap

/-- Why an instruction is refused. -/
inductive Fault where
  | notFound (owner : Identity)
  | alreadyOpened (owner : Identity)
  | unauthorized (signer : Identity) (required : Role)
  | invalidDelegate
  | slotTaken (authority : Authority)
  | slotEmpty (authority : Authority)
  | lockRunning (authority : Authority) (left : Seconds)
  | slotsTaken
  | staleNonce (expected presented : Nonce)
  | deadlinePassed (deadline now : Timestamp)
  | overCap (cap : Cap) (requested limit : Amount)
  | insufficientBalance (requested available : Amount)
  | zeroAmount
  | overflow
  | paused
  | notPaused
  | cooldownRunning (left : Seconds)
  | notEmpty (balance : Amount) (delegated : Bool)
  | closed
  | expired
  | negativeLifetime (secs : Seconds)
  | decimalsRefused (decimals : UInt8)
  | custody (fault : CustodyFault)
deriving DecidableEq, Repr

/-- The fault as it is reported. -/
def Fault.message : Fault → String
  | notFound owner => s!"No escrow for owner {owner.hex}"
  | alreadyOpened owner => s!"Escrow already initialized for owner {owner.hex}"
  | unauthorized signer role => s!"Unauthorized: {signer.hex} is not the {role.text}"
  | invalidDelegate =>
    "Invalid authority: cannot delegate to the default identity or the owner"
  | slotTaken a => s!"{a.label} authority already delegated"
  | slotEmpty a => s!"{a.label} authority not delegated"
  | lockRunning a left =>
    s!"{a.label} authority not yet active: {left.toInt}s of time-lock left"
  | slotsTaken => "Delegated authorities still active: revoke before withdrawing"
  | staleNonce expected presented =>
    s!"Stale nonce: expected {expected.toNat}, presented {presented.toNat}"
  | deadlinePassed deadline now => s!"Deadline {deadline.text} passed at {now.text}"
  | overCap cap requested limit =>
    s!"Limit exceeded ({cap.label}): requested {requested}, cap {limit}"
  | insufficientBalance requested available =>
    s!"Insufficient balance: requested {requested}, available {available}"
  | zeroAmount => "Invalid amount: must be greater than 0"
  | overflow => "Math overflow"
  | paused => "Escrow paused"
  | notPaused => "Escrow not paused"
  | cooldownRunning left => s!"Unpause cooldown active: {left.toInt}s left"
  | notEmpty balance delegated =>
    s!"Escrow not empty: balance {balance}, authorities active: {delegated}"
  | closed => "Escrow closed"
  | expired => "Escrow expired"
  | negativeLifetime secs => s!"Invalid lifetime {secs.toInt}: must be non-negative"
  | decimalsRefused decimals => s!"Invalid token decimals {decimals.toNat}"
  | custody fault => s!"Custody error: {fault.message}"

end DelegatedEscrow
