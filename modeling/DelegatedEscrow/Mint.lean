/-
DelegatedEscrow/Mint.lean

The token an escrow holds, fixed when the escrow is opened.  Two mints with one
key are the same token whatever decimals they claim; the decimals only say how
amounts are shown.
-/
import DelegatedEscrow.Identity
import DelegatedEscrow.Amount.Display

namespace DelegatedEscrow

/-- A fungible token: its key, and the decimals its amounts are shown with. -/
structure Mint where
  id : Identity
  decimals : UInt8
deriving DecidableEq, Repr

namespace Mint

/-- The dollar token, with six decimals. -/
def usdc : Mint := ⟨Identity.ofSeed 0xC0FFEE, 6⟩

/-- So many whole dollars in base units, for numbers that a word has room for. -/
def dollars (n : UInt64) : Amount := ⟨n * 1000000⟩

/-- An amount of this token in whole tokens. -/
def display? (m : Mint) (a : Amount) : Option Decimal := a.toDisplay? m.decimals

end Mint

end DelegatedEscrow
