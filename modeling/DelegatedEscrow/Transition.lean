/-
DelegatedEscrow/Transition.lean

The rules of the escrow.  A rule looks at the record of one escrow, the limits
and the clock, and says what the record would become, which tokens would move,
and what would be announced; or it names the fault that forbids it.  Nothing
happens yet: a transition takes effect only if its tokens can be moved.

The guards of a rule stand in the order in which their faults win.
-/
import DelegatedEscrow.Event
import DelegatedEscrow.Instruction
import DelegatedEscrow.Limits

namespace DelegatedEscrow

/-- Tokens that move when a transition takes effect. -/
structure Movement where
  source : Holder
  target : Holder
  amount : Amount
deriving DecidableEq, Repr

/-- What an instruction would do. -/
structure Transition where
  /-- The record afterwards. -/
  account : Account
  movement : Option Movement
  payload : Payload
deriving DecidableEq, Repr

/-- The ledger as a rule sees it. -/
structure Setting where
  limits : Limits
  now : Timestamp
deriving DecidableEq, Repr

/-- An amount to be moved is not zero. -/
def requirePositive (amount : Amount) : Except Fault Unit := require (amount ≠ 0) .zeroAmount

/-- The amount that a running total reaches, held to a cap on one escrow's life. -/
def raised (total amount : Amount) (cap : Cap) (limit : Option Amount) :
    Except Fault Amount := do
  let sum ← demand (total.add? amount) .overflow
  match limit with
  | none => return sum
  | some l =>
    require (sum ≤ l) (.overCap cap amount l)
    return sum

namespace Transition

/-- Only the record changes. -/
def silent (account : Account) (payload : Payload) : Transition := ⟨account, none, payload⟩

/-- Funds enter the escrow from the wallet of the signer. -/
def payIn (account : Account) (flow : Flow) (signer : Identity) (amount : Amount) :
    Transition where
  account
  movement := some ⟨.wallet signer, .vault account.owner, amount⟩
  payload := .funds flow ⟨amount, account.balance, signer⟩

/-- Funds leave the escrow for the wallet of the signer. -/
def payOut (account : Account) (flow : Flow) (signer : Identity) (amount : Amount) :
    Transition where
  account
  movement := some ⟨.vault account.owner, .wallet signer, amount⟩
  payload := .funds flow ⟨amount, account.balance, signer⟩

/-- Moves the tokens, which are those that the escrow holds. -/
def settle (t : Transition) (c : Custody) : Custody × Except CustodyFault Unit :=
  match t.movement with
  | none => (c, .ok ())
  | some m => c.transfer m.source m.target t.account.mint m.amount

end Transition

namespace Account

variable (s : Setting) (signer : Identity) (a : Account)

/-! ### Funds -/

/-- The owner pays in, up to the ceiling and the cap on all deposits. -/
def deposit (amount : Amount) : Except Fault Transition := do
  a.requireOpen
  a.requireOwner signer
  a.requireActive
  requirePositive amount
  a.requireUnexpired s.now
  let balance ← demand (a.balance.add? amount) .overflow
  require (balance ≤ a.ceiling) (.overCap .balance amount a.ceiling)
  let deposited ← raised a.totals.deposited amount .lifetimeDeposits a.caps.deposits
  let after := { a with balance, totals := { a.totals with deposited } }
  return .payIn after .deposit signer amount

/-- What both ways of taking funds back have in common: no slot may be taken. -/
def takeBack (flow : Flow) (amount : Amount) : Except Fault Transition := do
  requirePositive amount
  a.requireUndelegated
  let balance ← a.debited amount
  let withdrawn ← demand (a.totals.withdrawn.add? amount) .overflow
  let after := { a with balance, totals := { a.totals with withdrawn } }
  return .payOut after flow signer amount

/-- The owner takes funds back. -/
def withdraw (amount : Amount) : Except Fault Transition := do
  a.requireOpen
  a.requireOwner signer
  a.requireActive
  a.takeBack signer .withdrawal amount

/-- The owner takes funds back while the escrow is paused. -/
def emergencyWithdraw (amount : Amount) : Except Fault Transition := do
  a.requireOpen
  a.requireOwner signer
  require (a.status = .paused) .notPaused
  a.takeBack signer .emergencyWithdrawal amount

/-- What both ways of spending by a delegate have in common.  A pause wins over
every mismatch of slot or signer. -/
def requireSpendable (k : Authority) (amount : Amount) (nonce : Nonce) :
    Except Fault Unit := do
  a.requireActive
  a.requireDelegate k signer
  requirePositive amount
  a.requireMature k signer s.now s.limits.lockAge
  a.requireNonce nonce

/-- The platform collects a fee. -/
def collectFee (amount : Amount) (nonce : Nonce) : Except Fault Transition := do
  a.requireSpendable s signer .platform amount nonce
  require (amount ≤ s.limits.feeCap) (.overCap .fee amount s.limits.feeCap)
  let balance ← a.debited amount
  let fees ← demand (a.totals.fees.add? amount) .overflow
  let after ← { a with balance, totals := { a.totals with fees } }.spendNonce
  return .payOut after .subscriptionFee signer amount

/-- The trading service takes funds for a trade, up to the deadline. -/
def trade (amount : Amount) (nonce : Nonce) (deadline : Timestamp) :
    Except Fault Transition := do
  a.requireSpendable s signer .trading amount nonce
  require (s.now ≤ deadline) (.deadlinePassed deadline s.now)
  require (amount ≤ s.limits.tradeCap) (.overCap .trade amount s.limits.tradeCap)
  let traded ← raised a.totals.traded amount .lifetimeTraded a.caps.traded
  let balance ← a.debited amount
  let after ← { a with balance, totals := { a.totals with traded } }.spendNonce
  return .payOut after .tradeWithdrawal signer amount

/-! ### Delegation -/

/-- The owner fills an empty slot, which arms its time-lock. -/
def delegate (k : Authority) (d : Identity) : Except Fault Transition := do
  a.requireOpen
  a.requireOwner signer
  a.requireActive
  a.requireUnexpired s.now
  require (d ≠ .unset ∧ d ≠ a.owner) .invalidDelegate
  require (a.slot k = .empty) (.slotTaken k)
  return .silent (a.setSlot k (.delegated d s.now))
    (.delegated k d (s.now.plus s.limits.lockAge))

/-- The owner empties a slot. -/
def revoke (k : Authority) : Except Fault Transition := do
  a.requireOpen
  a.requireOwner signer
  a.requireActive
  let d ← demand (a.slot k).delegate? (.slotEmpty k)
  return .silent (a.setSlot k .empty) (.revoked k d)

/-! ### Life -/

/-- The owner pauses the escrow, which starts the cooldown. -/
def pause : Except Fault Transition := do
  a.requireOpen
  a.requireOwner signer
  require (a.status ≠ .paused) .paused
  return .silent { a with status := .paused, pausedAt := some s.now } .paused

/-- The owner ends a pause that has cooled down. -/
def unpause : Except Fault Transition := do
  a.requireOpen
  a.requireOwner signer
  require (a.status = .paused) .notPaused
  let left := a.cooldownRemaining s.now s.limits.cooldown
  require (left ≤ 0) (.cooldownRunning left)
  return .silent { a with status := .active } .unpaused

/-- The owner sets how long after its creation the escrow expires; zero is never. -/
def setLifetime (secs : Seconds) : Except Fault Transition := do
  a.requireOpen
  a.requireOwner signer
  a.requireActive
  require (0 ≤ secs) (.negativeLifetime secs)
  return .silent { a with lifetime := if 0 < secs then some secs else none } (.lifetimeSet secs)

/-- The owner closes the escrow.  What is left of the balance counts as dust and
is swept to the owner. -/
def close : Except Fault Transition := do
  a.requireOpen
  a.requireOwner signer
  require (a.balance ≤ s.limits.dust ∧ ¬ a.Delegated) (.notEmpty a.balance a.Delegated)
  let dust := a.balance
  let withdrawn ← demand (a.totals.withdrawn.add? dust) .overflow
  return {
    account :=
      { a with status := .closed, balance := 0, totals := { a.totals with withdrawn } }
    movement := if dust = 0 then none else some ⟨.vault a.owner, .wallet a.owner, dust⟩
    payload := .closed dust }

end Account

/-- What an action would do to an escrow. -/
def Action.stage (s : Setting) (signer : Identity) (a : Account) :
    Action → Except Fault Transition
  | deposit amount => a.deposit s signer amount
  | withdraw amount => a.withdraw signer amount
  | emergencyWithdraw amount => a.emergencyWithdraw signer amount
  | collectFee amount nonce => a.collectFee s signer amount nonce
  | trade amount nonce deadline => a.trade s signer amount nonce deadline
  | .delegate k d => a.delegate s signer k d
  | revoke k => a.revoke signer k
  | pause => a.pause s signer
  | unpause => a.unpause s signer
  | setLifetime secs => a.setLifetime signer secs
  | close => a.close s signer

/-- The escrow that an owner without one would get. -/
def Setting.create (s : Setting) (owner : Identity) (mint : Mint) (ceiling : Amount)
    (caps : LifetimeCaps) : Except Fault Transition := do
  require (s.limits.AcceptsDecimals mint.decimals) (.decimalsRefused mint.decimals)
  require (ceiling ≤ s.limits.hardCeiling) (.overCap .ceiling ceiling s.limits.hardCeiling)
  let granted := if ceiling = 0 then s.limits.defaultCeiling else ceiling
  return .silent (.new owner mint granted caps s.now) (.opened mint granted)

end DelegatedEscrow
