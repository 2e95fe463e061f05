/-
DelegatedEscrow/Limits.lean

The limits of a deployment.  Every escrow in it is held to the same ones: how
long a delegation is locked, how long a pause lasts at least, how much one call
may take, and how large an escrow may be.

A set of limits may contradict itself.  `Limits.check` finds the first
contradiction; a deployment that wants to be safe does not start with one.
-/
import DelegatedEscrow.Guard
import DelegatedEscrow.Mint
import DelegatedEscrow.Timestamp

namespace DelegatedEscrow

/-- What a deployment allows. -/
structure Limits where
  /-- How long a delegate waits before the first spending. -/
  lockAge : Seconds
  /-- How long a pause lasts at least. -/
  cooldown : Seconds
  /-- By how much the clocks of callers may differ from the ledger's. -/
  skew : Seconds
  /-- The largest fee that one call may collect. -/
  feeCap : Amount
  /-- The largest amount that one trade may take. -/
  tradeCap : Amount
  /-- The largest balance of an escrow that asks for no particular one. -/
  defaultCeiling : Amount
  /-- The largest balance that an escrow may ask for. -/
  hardCeiling : Amount
  /-- The largest balance that still counts as empty. -/
  dust : Amount
  minDecimals : UInt8
  maxDecimals : UInt8
deriving DecidableEq, Repr

/-- The ways in which limits contradict themselves. -/
inductive LimitsFault where
  | negativeDuration
  | lockBelowSkew
  | defaultAboveCeiling
  | tradeCapTooHigh
  | feeCapTooHigh
  | dustTooHigh
  | decimalsInverted
deriving DecidableEq, Repr

/-- The part of the limits that a contradiction lies in. -/
inductive LimitsFault.Part where
  | timing
  | amounts
  | mint
deriving DecidableEq, Repr

namespace LimitsFault

/-- The part of the limits at fault. -/
def part : LimitsFault → Part
  | negativeDuration | lockBelowSkew => .timing
  | defaultAboveCeiling | tradeCapTooHigh | feeCapTooHigh | dustTooHigh => .amounts
  | decimalsInverted => .mint

/-- The rule that is broken. -/
def reason : LimitsFault → String
  | negativeDuration => "durations must be non-negative"
  | lockBelowSkew => "authority time-lock shorter than timestamp tolerance"
  | defaultAboveCeiling => "default max balance exceeds allowed max balance"
  | tradeCapTooHigh => "per-trade cap must be below default max balance"
  | feeCapTooHigh => "subscription fee cap must be below per-trade cap"
  | dustTooHigh => "dust threshold must be below subscription fee cap"
  | decimalsInverted => "min decimals above max decimals"

/-- What is wrong with a part, in general. -/
def Part.heading : Part → String
  | timing => "Invalid timing"
  | amounts => "Invalid limits"
  | mint => "Invalid mint rules"

/-- The fault as it is reported. -/
def message (f : LimitsFault) : String := f.part.heading ++ ": " ++ f.reason

end LimitsFault

namespace Limits

/-- Stops at the first contradiction.

A time-lock shorter than the clock skew could be dodged by a fast clock, and
each cap on amounts has to lie strictly below the next larger one. -/
def check (l : Limits) : Except LimitsFault Unit := do
  require (0 ≤ l.lockAge ∧ 0 ≤ l.cooldown ∧ 0 ≤ l.skew) .negativeDuration
  require (l.skew ≤ l.lockAge) .lockBelowSkew
  require (l.defaultCeiling ≤ l.hardCeiling) .defaultAboveCeiling
  require (l.tradeCap < l.defaultCeiling) .tradeCapTooHigh
  require (l.feeCap < l.tradeCap) .feeCapTooHigh
  require (l.dust < l.feeCap) .dustTooHigh
  require (l.minDecimals ≤ l.maxDecimals) .decimalsInverted

/-- Tokens with this many decimals may be held. -/
def AcceptsDecimals (l : Limits) (d : UInt8) : Prop := l.minDecimals ≤ d ∧ d ≤ l.maxDecimals

instance (l : Limits) (d : UInt8) : Decidable (l.AcceptsDecimals d) :=
  inferInstanceAs (Decidable (_ ∧ _))

/-- The limits of a deployment that names none. -/
def standard : Limits where
  lockAge := 300
  cooldown := 300
  skew := 30
  feeCap := Mint.dollars 1000
  tradeCap := Mint.dollars 100000
  defaultCeiling := Mint.dollars 1000000
  hardCeiling := Mint.dollars 10000000
  dust := ⟨10⟩
  minDecimals := 6
  maxDecimals := 9

end Limits

/-! ### Environments -/

/-- The kinds of network that an escrow is deployed on. -/
inductive Environment where
  | localnet
  | devnet
  | mainnet
deriving DecidableEq, Repr

namespace Environment

/-- Every environment. -/
def all : List Environment := [localnet, devnet, mainnet]

def label : Environment → String
  | localnet => "localnet"
  | devnet => "devnet"
  | mainnet => "mainnet"

/-- Short locks suit testing by hand, small caps a public test network; on the
main network longer windows give owners time to notice a bad delegation. -/
def limits : Environment → Limits
  | localnet => { Limits.standard with lockAge := 30, cooldown := 30 }
  | devnet =>
    { Limits.standard with
      feeCap := Mint.dollars 100
      tradeCap := Mint.dollars 10000
      defaultCeiling := Mint.dollars 100000
      hardCeiling := Mint.dollars 1000000 }
  | mainnet => { Limits.standard with lockAge := 900, cooldown := 600 }

end Environment

end DelegatedEscrow
