/-
DelegatedEscrow/Proofs/Delegation.lean

A delegate spends only under a delegation that is alive and has matured.  The
rule sees a slot, a status and a clock.  The history of the escrow says what they
stand for: in the past of every spending there is a delegation by the owner,

    … delegate(k, d) … no revoke(k) … spending by d

and between the clock readings at its two ends lies the whole time-lock, counted
in ordinary integers, however the clock was moved in between.
-/
import DelegatedEscrow.Proofs.History
import DelegatedEscrow.Proofs.Timers

namespace DelegatedEscrow

namespace Action

/-- Under which authority an action spends, and how much. -/
def draw? : Action → Option (Authority × Amount)
  | collectFee amount _ => some (.platform, amount)
  | trade amount _ _ => some (.trading, amount)
  | _ => none

/-- Until when an action can take effect. -/
def deadline? : Action → Option Timestamp
  | trade _ _ deadline => some deadline
  | _ => none

end Action

/-- The largest amount that one call may take under an authority. -/
def Limits.callCap (limits : Limits) : Authority → Amount
  | .platform => limits.feeCap
  | .trading => limits.tradeCap

/-- What a record and its setting look like when a delegate may spend. -/
structure Account.Spendable (s : Setting) (signer : Identity) (a : Account) (k : Authority)
    (amount : Amount) : Prop where
  active : a.status = .active
  taken : (a.slot k).delegate? = some signer
  mature : (a.slot k).Mature s.now s.limits.lockAge
  positive : 0 < amount.toNat
  withinCap : amount ≤ s.limits.callCap k

/-- Both kinds of spending ask the same of the record. -/
theorem Action.stage_draw {s : Setting} {signer : Identity} {a : Account} {action : Action}
    {t : Transition} {k : Authority} {amount : Amount}
    (draws : action.draw? = some (k, amount)) (h : action.stage s signer a = .ok t) :
    a.Spendable s signer k amount ∧
      ∀ deadline, action.deadline? = some deadline → s.now ≤ deadline := by
  cases action with
  | collectFee fee nonce =>
    cases draws
    obtain ⟨spendable, withinCap, -⟩ := Account.collectFee_eq_ok_iff.1 h
    obtain ⟨active, taken, positive, mature, -⟩ :=
      Account.requireSpendable_eq_ok_iff.1 spendable
    exact ⟨⟨active, taken, mature, positive, withinCap⟩, nofun⟩
  | trade traded nonce deadline =>
    cases draws
    obtain ⟨spendable, inTime, withinCap, -⟩ := Account.trade_eq_ok_iff.1 h
    obtain ⟨active, taken, positive, mature, -⟩ :=
      Account.requireSpendable_eq_ok_iff.1 spendable
    refine ⟨⟨active, taken, mature, positive, withinCap⟩, fun latest same => ?_⟩
    obtain rfl : deadline = latest := Option.some.inj same
    exact inTime
  | _ => cases draws

namespace Ledger

/-- **A live and mature delegation.**  Whenever a delegate spends, the owner has put
this very delegate into the slot before and has not revoked it since, and the
time-lock has passed in between.  The delegate is a third party; the escrow is
neither paused nor closed by then; and the spending keeps to its cap and to its
deadline. -/
theorem spending_needs_mature_delegation (limits : Limits) (retention : Nat) (start : Ledger)
    (started : Ledger.start limits retention = .ok start) (steps : List Step)
    (past later : List Moment) (m : Moment) (history : start.trace steps = past ++ m :: later)
    (signer owner : Identity) (action : Action) (k : Authority) (amount : Amount)
    (accepted : m.accepted? = some ⟨signer, .act owner action⟩)
    (draws : action.draw? = some (k, amount)) :
    (∃ armed,
        Since (fun n => n.Arms owner k signer armed) (fun n => ¬ n.Performs owner (.revoke k))
          past ∧
        limits.lockAge.toInt ≤ m.before.now.toInt - armed.toInt) ∧
      (signer ≠ owner ∧ signer ≠ .unset) ∧
      (∀ before n between, past = before ++ n :: between → n.Performs owner .pause →
        ∃ u ∈ between, u.Performs owner .unpause) ∧
      (∀ n ∈ past, ¬ n.Performs owner .close) ∧
      (0 < amount.toNat ∧ amount ≤ limits.callCap k) ∧
      ∀ deadline, action.deadline? = some deadline → m.before.now ≤ deadline := by
  obtain ⟨lock, -⟩ := spans_of_start started
  obtain ⟨-, rfl⟩ := start_eq_ok_iff.1 started
  have path := path_trace (Ledger.fresh limits retention) steps
  rw [history] at path
  obtain ⟨before, single, -⟩ := path.split
  obtain ⟨records, recalls⟩ := before.remembers (Account.invariant_true limits)
  obtain ⟨a, t, found, staged⟩ := records.staged_of_accepted single accepted
  have remembers : Remembers past owner a := (recalls owner).2 a found
  -- The rule has looked at the record, and the record remembers.
  obtain ⟨⟨active, taken, mature, positive, withinCap⟩, inTime⟩ := Action.stage_draw draws staged
  obtain ⟨armed, slot⟩ := Slot.eq_delegated_of_delegate? taken
  obtain ⟨⟨named, other⟩, since⟩ := remembers.slot slot
  have setLimits : m.before.setting.limits = limits := records.limits_eq
  rw [slot, setLimits] at mature
  rw [setLimits] at withinCap
  refine ⟨⟨armed, since, (Slot.mature_delegated_iff lock).1 mature⟩, ⟨other, named⟩, ?_, ?_,
    ⟨positive, withinCap⟩, inTime⟩
  · exact not_since_not_iff.1 (remembers.active active)
  · exact remembers.isOpen (by simp [active])

/-- A run in which an escrow is opened, funded, delegated, paused and unpaused, and
the clock is moved back and forth. -/
def subscription : List Step :=
  [.issue (.wallet (.ofSeed 1)) .usdc ⟨100⟩,
    .submit ⟨.ofSeed 1, .create .usdc 0 .unlimited⟩,
    .submit ⟨.ofSeed 1, .act (.ofSeed 1) (.deposit ⟨60⟩)⟩,
    .submit ⟨.ofSeed 1, .act (.ofSeed 1) (.delegate .platform (.ofSeed 100))⟩,
    .setTime ⟨-50⟩,
    .submit ⟨.ofSeed 1, .act (.ofSeed 1) .pause⟩,
    .setTime ⟨300⟩,
    .submit ⟨.ofSeed 1, .act (.ofSeed 1) .unpause⟩]

/-- The fee that the delegate then asks for. -/
def subscriptionFee : Signed := ⟨.ofSeed 100, .act (.ofSeed 1) (.collectFee ⟨10⟩ 0)⟩

/-- It is collected at the first second at which the lock of 300 seconds is over. -/
theorem spending_at_the_last_second :
    let start := Ledger.fresh .standard 8
    let m : Moment := ⟨start.run subscription, .submit subscriptionFee⟩
    m.accepted? = some subscriptionFee ∧ m.before.now.toInt = 300 ∧
      ∃ armed,
        Since (fun n => n.Arms (.ofSeed 1) .platform (.ofSeed 100) armed)
          (fun n => ¬ n.Performs (.ofSeed 1) (.revoke .platform)) (start.trace subscription) ∧
        300 ≤ m.before.now.toInt - armed.toInt := by
  intro start m
  have accepted : m.accepted? = some subscriptionFee := by decide +kernel
  have history : start.trace (subscription ++ [.submit subscriptionFee]) =
      start.trace subscription ++ m :: [] := by
    rfl
  obtain ⟨delegation, -⟩ :=
    spending_needs_mature_delegation .standard 8 start (start_standard 8)
      (subscription ++ [.submit subscriptionFee]) (start.trace subscription) [] m history
      (.ofSeed 100) (.ofSeed 1) (.collectFee ⟨10⟩ 0) .platform ⟨10⟩ accepted rfl
  exact ⟨accepted, by decide +kernel, delegation⟩

end Ledger

end DelegatedEscrow
