/-
DelegatedEscrow/Proofs/Refusal.lean

A refused instruction leaves no trace.  It may be refused by its rule, which
only reads the ledger, or by custody, after the rule has let it through; either
way nothing has been written by then.

The one thing that a refusal may use up is the failure armed in custody, and it
does so exactly when that failure is the fault reported.  This needs to know
that no rule blames custody on its own account: the faults of a rule are
*ordinary*.
-/
import DelegatedEscrow.Proofs.Settlement
import DelegatedEscrow.Proofs.Submission

namespace DelegatedEscrow

/-- Whatever fault this ends in, it is not the fault of custody. -/
def Ordinary {α : Type} (x : Except Fault α) : Prop := ∀ f, x ≠ .error (.custody f)

section
variable {α β : Type} {p : Prop} [Decidable p] {fault : Fault} {value : Option α}

@[simp] theorem ordinary_pure (a : α) : Ordinary (pure a : Except Fault α) :=
  fun _ => pure_ne_error

@[simp] theorem ordinary_require_iff :
    Ordinary (require p fault) ↔ p ∨ ∀ f, fault ≠ .custody f := by
  by_cases h : p <;> simp [Ordinary, h]

@[simp] theorem ordinary_demand_iff :
    Ordinary (demand value fault) ↔ (∃ a, value = some a) ∨ ∀ f, fault ≠ .custody f := by
  cases value <;> simp [Ordinary]

@[simp] theorem ordinary_bind_iff {x : Except Fault α} {g : α → Except Fault β} :
    Ordinary (x >>= g) ↔ Ordinary x ∧ ∀ a, x = .ok a → Ordinary (g a) := by
  simp only [Ordinary, ne_eq, bind_eq_error_iff, not_or, not_exists, not_and]
  constructor
  · intro h
    exact ⟨fun f => (h f).1, fun a passed f => (h f).2 a passed⟩
  · rintro ⟨first, later⟩ f
    exact ⟨first f, fun a passed => later a passed f⟩

@[simp] theorem ordinary_map_iff {x : Except Fault α} {g : α → β} :
    Ordinary (g <$> x) ↔ Ordinary x := by
  cases x <;> simp [Ordinary, Functor.map, Except.map]

end

/-! ### The faults of rules -/

theorem ordinary_raised (total amount : Amount) (cap : Cap) (limit : Option Amount) :
    Ordinary (raised total amount cap limit) := by
  cases limit <;> simp [raised]

namespace Account

variable (a : Account) (s : Setting) (signer : Identity) (amount : Amount) (nonce : Nonce)

theorem ordinary_takeBack (flow : Flow) : Ordinary (a.takeBack signer flow amount) := by
  simp [takeBack, requirePositive, requireUndelegated, debited]

theorem ordinary_requireSpendable (k : Authority) :
    Ordinary (a.requireSpendable s signer k amount nonce) := by
  simp [requireSpendable, requireActive, requireOpen, requireDelegate, requirePositive,
    requireMature, requireNonce]

end Account

open Account in
theorem Action.ordinary_stage (action : Action) (s : Setting) (signer : Identity)
    (a : Account) : Ordinary (action.stage s signer a) := by
  cases action with
  | deposit amount =>
    simp [stage, Account.deposit, requireOpen, requireOwner, requireActive, requirePositive,
      requireUnexpired, ordinary_raised]
  | withdraw amount =>
    simp [stage, Account.withdraw, requireOpen, requireOwner, requireActive, ordinary_takeBack]
  | emergencyWithdraw amount =>
    simp [stage, Account.emergencyWithdraw, requireOpen, requireOwner, ordinary_takeBack]
  | collectFee amount nonce =>
    simp [stage, Account.collectFee, ordinary_requireSpendable, debited, spendNonce]
  | trade amount nonce deadline =>
    simp [stage, Account.trade, ordinary_requireSpendable, ordinary_raised, debited, spendNonce]
  | delegate k d =>
    simp [stage, Account.delegate, requireOpen, requireOwner, requireActive, requireUnexpired]
  | revoke k => simp [stage, Account.revoke, requireOpen, requireOwner, requireActive]
  | pause => simp [stage, Account.pause, requireOpen, requireOwner]
  | unpause => simp [stage, Account.unpause, requireOpen, requireOwner]
  | setLifetime secs =>
    simp [stage, Account.setLifetime, requireOpen, requireOwner, requireActive]
  | close => simp [stage, Account.close, requireOpen, requireOwner]

theorem Ledger.ordinary_stage (l : Ledger) (s : Signed) : Ordinary (l.stage s) := by
  obtain ⟨signer, ⟨mint, ceiling, caps⟩ | ⟨owner, action⟩⟩ := s
  · simp [stage, Setting.create]
  · simp [stage, escrow, Action.ordinary_stage]

namespace Ledger

/-! ### Refused instructions -/

/-- Whether its rule refuses an instruction or custody does, records, balances and journal
are left in place. -/
theorem kept_of_refused {l : Ledger} {s : Signed} {f : Fault}
    (refused : (l.submit s).2 = .error f) :
    (l.submit s).1.escrows = l.escrows ∧
      (∀ h token, (l.submit s).1.custody.balance h token = l.custody.balance h token) ∧
      (l.submit s).1.journal = l.journal := by
  rcases submit_cases l s with ⟨_, -, e⟩ | ⟨_, _, _, -, unsettled, e⟩ | ⟨_, _, -, -, e⟩
  · rw [e]
    exact ⟨rfl, fun _ _ => rfl, rfl⟩
  · rw [e]
    exact ⟨rfl, Transition.balance_of_settle_error unsettled, rfl⟩
  · rw [e] at refused
    cases refused

/-- The ledger, with no failure armed in custody. -/
def disarmed (l : Ledger) : Ledger := { l with custody := { l.custody with armed := none } }

/-- **Atomicity.**  A refusal leaves the whole ledger as it was, unless the fault
reported is the failure armed in custody; that failure is then spent, and nothing
else has changed.  The same instruction, submitted again, does what it would have
done had no failure been armed. -/
theorem refusal_leaves_no_trace (l : Ledger) (s : Signed) (f : Fault)
    (refused : (l.submit s).2 = .error f) :
    (∃ reason, f = .custody (.rejected reason) ∧ l.custody.armed = some reason ∧
        (l.submit s).1 = l.disarmed ∧ (l.submit s).1.submit s = l.disarmed.submit s) ∨
      ((∀ reason, f ≠ .custody (.rejected reason)) ∧ (l.submit s).1 = l) := by
  rcases submit_cases l s with ⟨g, unstaged, e⟩ | ⟨t, c, g, -, unsettled, e⟩ | ⟨_, _, -, -, e⟩
  · -- The rule refuses, with an ordinary fault and before anything is written.
    rw [e] at refused ⊢
    obtain rfl : g = f := Except.error.inj refused
    refine .inr ⟨fun reason blamed => ?_, rfl⟩
    rw [blamed] at unstaged
    exact ordinary_stage l s _ unstaged
  · -- Custody refuses, and has spent the armed failure if it blames that.
    rw [e] at refused ⊢
    obtain rfl : Fault.custody g = f := Except.error.inj refused
    rcases Transition.settle_error unsettled with ⟨reason, rfl, armed, rfl⟩ | ⟨other, -, rfl⟩
    · exact .inl ⟨reason, rfl, armed, rfl, rfl⟩
    · exact .inr ⟨fun reason blamed => other reason (Fault.custody.inj blamed), rfl⟩
  · rw [e] at refused
    cases refused

/-- A ledger with an escrow, on which the next transfer is going to fail. -/
def offline : Ledger :=
  (Ledger.fresh .standard 8).run
    [.issue (.wallet (.ofSeed 1)) .usdc ⟨100⟩,
      .submit ⟨.ofSeed 1, .create .usdc 0 .unlimited⟩, .arm "offline"]

/-- A deposit that the armed failure stops goes through the second time. -/
theorem refusal_while_offline :
    (offline.submit ⟨.ofSeed 1, .act (.ofSeed 1) (.deposit ⟨50⟩)⟩).2 =
        .error (.custody (.rejected "offline")) ∧
      (offline.submit ⟨.ofSeed 1, .act (.ofSeed 1) (.deposit ⟨50⟩)⟩).1 = offline.disarmed ∧
      (offline.disarmed.submit ⟨.ofSeed 1, .act (.ofSeed 1) (.deposit ⟨50⟩)⟩).2.isOk := by
  have refused : (offline.submit ⟨.ofSeed 1, .act (.ofSeed 1) (.deposit ⟨50⟩)⟩).2 =
      .error (.custody (.rejected "offline")) := by
    rfl
  refine ⟨refused, ?_, by decide +kernel⟩
  rcases refusal_leaves_no_trace _ _ _ refused with ⟨_, -, -, after, -⟩ | ⟨other, -⟩
  · exact after
  · exact absurd rfl (other "offline")

end Ledger

end DelegatedEscrow
