/-
DelegatedEscrow/Amount/Display.lean

People read an amount in whole tokens: 1 500 000 base units of a token with six
decimals are shown as 1.5.  `toDisplay?` places the point and drops the zeros
behind it; `ofDisplay?` reads a shown value back and refuses what is negative,
finer than one base unit, or too large for a word.  It counts by the base units
of one token, and so refuses everything where these do not fit a word.
-/
import DelegatedEscrow.Amount
import DelegatedEscrow.Decimal

namespace DelegatedEscrow.Amount

/-- The amount in whole tokens, for a token with at most 28 decimals. -/
def toDisplay? (a : Amount) (decimals : UInt8) : Option Decimal :=
  (Decimal.ofParts? a.toNat decimals.toNat).map Decimal.normalize

/-- One token in base units, if a word holds them. -/
def oneToken? (decimals : UInt8) : Option Amount := ofNat? (Nat.pow 10 decimals.toNat)

/-- The amount that is shown as `v`, if there is one. -/
def ofDisplay? (v : Decimal) (decimals : UInt8) : Option Amount := do
  if v.coefficient < 0 then none
  let one ← oneToken? decimals
  let scaled ← v.times? one.toNat
  let n ← scaled.integer?
  ofNat? n.toNat

end DelegatedEscrow.Amount
