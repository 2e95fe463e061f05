/-
DelegatedEscrow/Account/Soundness.lean

What is true of every record that came about by instructions: its balance stays
below its ceiling, its totals account for its balance exactly, and once closed
it holds neither funds nor delegates.

`Sound` states it, and `check` finds the first part that is broken.
-/
import DelegatedEscrow.Account

namespace DelegatedEscrow.Account

/-- How a record fails to be sound. -/
inductive Violation where
  | balanceAboveCeiling (balance ceiling : Amount)
  | unaccounted (deposited : Amount) (outflow : Nat) (balance : Amount)
  | closedNotEmpty
deriving DecidableEq, Repr

/-- The violation as it is reported. -/
def Violation.message : Violation → String
  | balanceAboveCeiling balance ceiling => s!"Balance {balance} above max {ceiling}"
  | unaccounted deposited outflow balance =>
    s!"Conservation broken: deposited {deposited}, outflow {outflow}, balance {balance}"
  | closedNotEmpty => "Closed escrow still holds funds or authorities"

/-- A record that instructions can bring about. -/
structure Sound (a : Account) : Prop where
  balance_le : a.balance ≤ a.ceiling
  deposited_eq : a.totals.deposited.toNat = a.totals.outflow + a.balance.toNat
  closed_empty : a.status = .closed → a.balance = 0 ∧ ¬ a.Delegated

/-- Stops at the first part that is broken. -/
def check (a : Account) : Except Violation Unit := do
  require (a.balance ≤ a.ceiling) (.balanceAboveCeiling a.balance a.ceiling)
  require (a.totals.deposited.toNat = a.totals.outflow + a.balance.toNat)
    (.unaccounted a.totals.deposited a.totals.outflow a.balance)
  require (a.status = .closed → a.balance = 0 ∧ ¬ a.Delegated) .closedNotEmpty

theorem check_eq_ok_iff {a : Account} {u : Unit} : a.check = .ok u ↔ a.Sound := by
  simp only [check, bind_eq_ok_iff, require_eq_ok_iff]
  constructor
  · rintro ⟨_, below, _, accounted, empty⟩
    exact ⟨below, accounted, empty⟩
  · intro sound
    exact ⟨(), sound.balance_le, (), sound.deposited_eq, sound.closed_empty⟩

end DelegatedEscrow.Account
