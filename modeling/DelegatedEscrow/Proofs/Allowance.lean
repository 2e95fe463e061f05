/-
DelegatedEscrow/Proofs/Allowance.lean

Limits in the long run.  Each limit is checked on one call, against a record that is
about to change; what an owner relies on is what it adds up to over the whole life of
an escrow.  Two kinds of bound come out of it.

Some are kept by the record itself (`Account.Within`): the ceiling was granted by the
limits, the token has decimals that are accepted, and the totals of deposits and of
trades stay below the caps that the owner has chosen.

The others count.  A record does not list the draws on it, but its past does, and

    fees    =  the sum of all fees drawn          nonce  =  the number of all draws
    traded  =  the sum of all trades drawn

hold at any time (`Account.Tallies`).  Since each draw is at most the cap on one call,
so many draws are at most so many times the cap.
-/
import DelegatedEscrow.Proofs.Absence

namespace DelegatedEscrow

/-! ### Bounds that a record keeps -/

namespace Account

/-- The caps on the whole life of an escrow have been kept. -/
structure Capped (a : Account) : Prop where
  deposits : ∀ cap, a.caps.deposits = some cap → a.totals.deposited ≤ cap
  traded : ∀ cap, a.caps.traded = some cap → a.totals.traded ≤ cap

/-- What the limits have granted to an escrow, and the caps that it was opened with. -/
structure Within (limits : Limits) (a : Account) : Prop where
  granted : 0 < a.ceiling.toNat ∧ a.ceiling ≤ limits.hardCeiling
  decimals : limits.AcceptsDecimals a.mint.decimals
  deposits : ∀ cap, a.caps.deposits = some cap → a.totals.deposited ≤ cap
  traded : ∀ cap, a.caps.traded = some cap → a.totals.traded ≤ cap

variable {limits : Limits} {s : Setting} {signer owner : Identity} {a : Account}
variable {action : Action} {t : Transition}

/-- Whatever ceiling is asked for, the one that is granted is positive: a ceiling of zero
asks for the default one, and that lies above the other caps. -/
theorem within_create {mint : Mint} {ceiling : Amount} {caps : LifetimeCaps}
    (h : s.create owner mint ceiling caps = .ok t) (checked : s.limits.check = .ok ()) :
    t.account.Within s.limits := by
  obtain ⟨-, -, defaultBelow, tradeBelow, -⟩ := Limits.check_eq_ok_iff.1 checked
  obtain ⟨accepted, below, granted, e, rfl⟩ := Setting.create_eq_ok_iff.1 h
  rw [Amount.lt_iff_toNat_lt] at tradeBelow
  refine ⟨?_, accepted, fun _ _ => Nat.zero_le _, fun _ _ => Nat.zero_le _⟩
  show 0 < granted.toNat ∧ granted ≤ s.limits.hardCeiling
  by_cases zero : ceiling = 0
  · rw [if_pos zero] at e
    rw [e]
    exact ⟨by omega, defaultBelow⟩
  · rw [if_neg zero] at e
    rw [e]
    rw [Amount.eq_zero_iff] at zero
    exact ⟨by omega, below⟩

end Account

namespace Action

open Account

variable {s : Setting} {signer : Identity} {a : Account} {action : Action} {t : Transition}

/-- Only a deposit adds to what was deposited, and then it keeps to the cap. -/
theorem deposited_stage (h : action.stage s signer a = .ok t) :
    t.account.totals.deposited = a.totals.deposited ∨
      ∀ cap, a.caps.deposits = some cap → t.account.totals.deposited ≤ cap := by
  cases (stage_effect h).books with
  | still _ _ totals => exact .inl (by rw [totals])
  | paidOut _ _ _ _ deposited _ => exact .inl deposited
  | paidIn amount deposits =>
    subst deposits
    obtain ⟨-, -, -, -, _, -, -, _, -, capped, rfl⟩ := deposit_eq_ok_iff.1 h
    exact .inr capped

/-- What the actions of the owner leave to the delegates. -/
theorem undrawn_stage (owns : action.role = .owner) (h : action.stage s signer a = .ok t) :
    t.account.totals.fees = a.totals.fees ∧ t.account.totals.traded = a.totals.traded ∧
      t.account.nonce = a.nonce := by
  cases action with
  | deposit amount =>
    obtain ⟨-, -, -, -, _, -, -, _, -, -, rfl⟩ := deposit_eq_ok_iff.1 h
    exact ⟨rfl, rfl, rfl⟩
  | withdraw amount =>
    obtain ⟨-, -, taken⟩ := withdraw_eq_ok_iff.1 h
    obtain ⟨-, -, _, -, _, -, rfl⟩ := takeBack_eq_ok_iff.1 taken
    exact ⟨rfl, rfl, rfl⟩
  | emergencyWithdraw amount =>
    obtain ⟨-, -, taken⟩ := emergencyWithdraw_eq_ok_iff.1 h
    obtain ⟨-, -, _, -, _, -, rfl⟩ := takeBack_eq_ok_iff.1 taken
    exact ⟨rfl, rfl, rfl⟩
  | collectFee amount nonce => cases owns
  | trade amount nonce deadline => cases owns
  | delegate k d =>
    obtain ⟨-, -, -, -, -, rfl⟩ := delegate_eq_ok_iff.1 h
    cases k <;> exact ⟨rfl, rfl, rfl⟩
  | revoke k =>
    obtain ⟨-, -, _, -, rfl⟩ := revoke_eq_ok_iff.1 h
    cases k <;> exact ⟨rfl, rfl, rfl⟩
  | pause =>
    obtain ⟨-, -, rfl⟩ := pause_eq_ok_iff.1 h
    exact ⟨rfl, rfl, rfl⟩
  | unpause =>
    obtain ⟨-, -, -, rfl⟩ := unpause_eq_ok_iff.1 h
    exact ⟨rfl, rfl, rfl⟩
  | setLifetime secs =>
    obtain ⟨-, -, -, rfl⟩ := setLifetime_eq_ok_iff.1 h
    exact ⟨rfl, rfl, rfl⟩
  | close =>
    obtain ⟨-, -, -, _, -, rfl⟩ := close_eq_ok_iff.1 h
    exact ⟨rfl, rfl, rfl⟩

/-- Only a trade adds to what was traded, and then it keeps to the cap. -/
theorem traded_stage (h : action.stage s signer a = .ok t) :
    t.account.totals.traded = a.totals.traded ∨
      ∀ cap, a.caps.traded = some cap → t.account.totals.traded ≤ cap := by
  cases action with
  | trade amount nonce deadline =>
    obtain ⟨-, -, -, traded, -, capped, _, -, -, rfl⟩ := trade_eq_ok_iff.1 h
    exact .inr capped
  | collectFee amount nonce =>
    obtain ⟨-, -, _, -, _, -, -, rfl⟩ := collectFee_eq_ok_iff.1 h
    exact .inl rfl
  | _ =>
    obtain ⟨-, traded, -⟩ := undrawn_stage rfl h
    exact .inl traded

end Action

namespace Account

variable {limits : Limits} {s : Setting} {signer : Identity} {a : Account}
variable {action : Action} {t : Transition} {drawn : Authority → List Amount}

/-- A total that has a cap is raised up to the cap at most. -/
theorem Capped.stage (capped : a.Capped) (h : action.stage s signer a = .ok t) :
    t.account.Capped := by
  have terms := (Action.stage_effect h).terms
  constructor
  · intro cap chosen
    rw [terms.caps] at chosen
    rcases Action.deposited_stage h with same | below
    · rw [same]
      exact capped.deposits cap chosen
    · exact below cap chosen
  · intro cap chosen
    rw [terms.caps] at chosen
    rcases Action.traded_stage h with same | below
    · rw [same]
      exact capped.traded cap chosen
    · exact below cap chosen

/-- The caps that an owner chooses are kept whatever the limits. -/
theorem capped_invariant (limits : Limits) : Invariant limits Capped where
  opened created := by
    obtain ⟨-, -, granted, -, rfl⟩ := Setting.create_eq_ok_iff.1 created
    exact ⟨fun _ _ => Nat.zero_le _, fun _ _ => Nat.zero_le _⟩
  acted capped acted := capped.stage acted

theorem Within.stage (within : a.Within limits) (h : action.stage s signer a = .ok t) :
    t.account.Within limits := by
  have terms := (Action.stage_effect h).terms
  have capped : t.account.Capped := Capped.stage ⟨within.deposits, within.traded⟩ h
  refine ⟨?_, ?_, capped.deposits, capped.traded⟩
  · rw [terms.ceiling]
    exact within.granted
  · rw [terms.mint]
    exact within.decimals

theorem within_invariant (checked : limits.check = .ok ()) :
    Invariant limits (Within limits) where
  opened created := within_create created checked
  acted within acted := within.stage acted

/-! ### Bounds that count -/

/-- What the totals of the delegates and the nonce say about the amounts drawn. -/
structure Tallies (a : Account) (drawn : Authority → List Amount) : Prop where
  fees : a.totals.fees.toNat = Amount.total (drawn .platform)
  traded : a.totals.traded.toNat = Amount.total (drawn .trading)
  nonce : a.nonce.toNat = (drawn .platform).length + (drawn .trading).length

theorem Tallies.stage (tallies : a.Tallies drawn) (h : action.stage s signer a = .ok t) :
    t.account.Tallies fun k => drawn k ++ (action.drawUnder? k).toList := by
  obtain ⟨fees, traded, nonce⟩ := tallies
  by_cases owns : action.role = .owner
  · -- The owner draws nothing.
    have nothing : ∀ k, action.drawUnder? k = none := by
      intro k
      apply Option.eq_none_iff_forall_ne_some.2
      intro amount draws
      have delegated := Action.role_of_draw (Action.drawUnder?_eq_some_iff.1 draws)
      cases owns.symm.trans delegated
    obtain ⟨sameFees, sameTraded, sameNonce⟩ := Action.undrawn_stage owns h
    simp only [nothing, Option.toList_none, List.append_nil]
    exact ⟨by rw [sameFees, fees], by rw [sameTraded, traded], by rw [sameNonce, nonce]⟩
  · have drained := Action.stage_drained owns h
    constructor
    · rw [drained.fees, fees, Amount.total_append]
    · rw [drained.traded, traded, Amount.total_append]
    · rw [drained.nonce, nonce, List.length_append, List.length_append]
      omega

/-- A new escrow has nothing to tally. -/
theorem tallies_create {owner : Identity} {mint : Mint} {ceiling : Amount} {caps : LifetimeCaps}
    (h : s.create owner mint ceiling caps = .ok t) : t.account.Tallies fun _ => [] := by
  obtain ⟨-, -, granted, -, rfl⟩ := Setting.create_eq_ok_iff.1 h
  exact ⟨rfl, rfl, rfl⟩

end Account

/-- What an action draws is drawn by its signer. -/
theorem Signed.draws?_act {signer owner : Identity} {action : Action} {k : Authority} :
    Signed.draws? ⟨signer, .act owner action⟩ owner k (some signer) = action.drawUnder? k :=
  if_pos ⟨rfl, rfl⟩

namespace Ledger

variable {l : Ledger} {past : List Moment} {m : Moment} {i : Signed} {limits : Limits}
variable {P : Account → Prop} {owner : Identity} {a : Account} {k : Authority}

/-- The amounts that have been drawn from the escrow of an owner under an authority, by
whoever held it at the time, in order. -/
def drawnUnder (ms : List Moment) (owner : Identity) (k : Authority) : List Amount :=
  ms.filterMap fun m => m.accepted?.bind fun i => i.draws? owner k (some i.signer)

theorem drawnUnder_concat_of_accepted (accepted : m.accepted? = some i) :
    drawnUnder (past ++ [m]) owner k =
      drawnUnder past owner k ++ (i.draws? owner k (some i.signer)).toList := by
  rw [drawnUnder, filterMap_concat, accepted, Option.bind_some, drawnUnder]

theorem drawnUnder_concat_of_others (others : ∀ i, m.accepted? = some i → i.target ≠ owner) :
    drawnUnder (past ++ [m]) owner k = drawnUnder past owner k := by
  have nothing : m.accepted?.bind (fun i => i.draws? owner k (some i.signer)) = none := by
    rw [Option.bind_eq_none_iff]
    intro i accepted
    apply Option.eq_none_iff_forall_ne_some.2
    intro amount draws
    obtain ⟨action, acts, -⟩ := Signed.draws?_eq_some_iff.1 draws
    exact others i accepted (by rw [Signed.target, acts])
  rw [drawnUnder, filterMap_concat, nothing, Option.toList_none, List.append_nil, drawnUnder]

/-- **Tallies.**  At any time the totals and the nonce of a record sum up the draws in
its past, and nothing was drawn from an escrow that was never opened. -/
theorem Path.tallies (inv : Account.Invariant limits P) {retention : Nat}
    (p : Path (Ledger.fresh limits retention) past l) :
    l.Records limits P ∧
      ∀ owner,
        (l.escrow? owner = none → ∀ k, drawnUnder past owner k = []) ∧
          ∀ a, l.escrow? owner = some a → a.Tallies (drawnUnder past owner) := by
  apply Path.grow_records
    (Q := fun past l => ∀ owner,
      (l.escrow? owner = none → ∀ k, drawnUnder past owner k = []) ∧
        ∀ a, l.escrow? owner = some a → a.Tallies (drawnUnder past owner)) inv _ _ p
  · intro owner
    refine ⟨fun _ _ => rfl, fun a found => ?_⟩
    simp [escrow?, Ledger.fresh] at found
  · intro past l s single records tallied owner
    obtain ⟨absent, present⟩ := tallied owner
    have recordStep : RecordStep ⟨l, s⟩ owner := Records.recordStep records single owner
    cases recordStep with
    | kept same others =>
      have still : drawnUnder (past ++ [⟨l, s⟩]) owner = drawnUnder past owner := by
        funext k
        exact drawnUnder_concat_of_others others
      rw [still]
      exact ⟨fun gone => absent (same.symm.trans gone), fun a found =>
        present a (same.symm.trans found)⟩
    | opened mint ceiling caps t accepted before created written =>
      refine ⟨fun gone => ?_, fun a found => ?_⟩
      · cases gone.symm.trans written
      · obtain rfl : a = t.account := Option.some.inj (found.symm.trans written)
        have none : drawnUnder (past ++ [⟨l, s⟩]) owner = fun _ => [] := by
          funext k
          rw [drawnUnder_concat_of_accepted accepted, absent before]
          rfl
        rw [none]
        exact Account.tallies_create created
    | acted signer action b t accepted before staged written =>
      refine ⟨fun gone => ?_, fun a found => ?_⟩
      · cases gone.symm.trans written
      · obtain rfl : a = t.account := Option.some.inj (found.symm.trans written)
        have one : drawnUnder (past ++ [⟨l, s⟩]) owner =
            fun k => drawnUnder past owner k ++ (action.drawUnder? k).toList := by
          funext k
          rw [drawnUnder_concat_of_accepted accepted, Signed.draws?_act]
        rw [one]
        exact (present b before).stage staged

/-- No draw takes more than the cap on one call. -/
theorem Path.drawnUnder_le (inv : Account.Invariant limits P) {l' : Ledger}
    (p : Path l past l') (h : l.Records limits P) :
    ∀ x ∈ drawnUnder past owner k, x ≤ limits.callCap k := by
  intro x hx
  obtain ⟨m, hm, drawn⟩ := List.mem_filterMap.1 hx
  obtain ⟨i, accepted, draws⟩ := Option.bind_eq_some_iff.1 drawn
  -- Its signer is somebody who draws, so it is one of the draws of that delegate.
  have his : x ∈ Ledger.drawn past owner k (some i.signer) :=
    List.mem_filterMap.2 ⟨m, hm, Option.bind_eq_some_iff.2 ⟨i, accepted, draws⟩⟩
  exact p.drawn_le inv h x his

/-- **Limits in the long run.**  In every record of a ledger whose limits have been
checked, the ceiling is positive and was granted, the token has decimals that are
accepted, and the totals of deposits and of trades keep to the caps that the escrow was
opened with.  The nonce counts the fees and the trades that have been drawn, and what
they come to is at most the cap on one call, that many times. -/
theorem limits_hold_throughout (limits : Limits) (retention : Nat) (start : Ledger)
    (started : Ledger.start limits retention = .ok start) (steps : List Step)
    (owner : Identity) (a : Account) (found : (start.run steps).escrow? owner = some a) :
    let fees := drawnUnder (start.trace steps) owner .platform
    let trades := drawnUnder (start.trace steps) owner .trading
    (0 < a.ceiling.toNat ∧ a.ceiling ≤ limits.hardCeiling) ∧
      (limits.minDecimals ≤ a.mint.decimals ∧ a.mint.decimals ≤ limits.maxDecimals) ∧
      (∀ cap, a.caps.deposits = some cap → a.totals.deposited ≤ cap) ∧
      (∀ cap, a.caps.traded = some cap → a.totals.traded ≤ cap) ∧
      fees.length + trades.length = a.nonce.toNat ∧
      a.totals.fees.toNat ≤ fees.length * limits.feeCap.toNat ∧
      a.totals.traded.toNat ≤ trades.length * limits.tradeCap.toNat ∧
      a.totals.fees.toNat + a.totals.traded.toNat ≤ a.nonce.toNat * limits.tradeCap.toNat := by
  intro fees trades
  obtain ⟨checked, rfl⟩ := start_eq_ok_iff.1 started
  obtain ⟨-, -, -, -, feeBelow, -⟩ := Limits.check_eq_ok_iff.1 checked
  have inv := Account.within_invariant checked
  have path := path_trace (Ledger.fresh limits retention) steps
  obtain ⟨records, tallied⟩ := path.tallies inv
  obtain ⟨granted, decimals, deposits, traded⟩ := records.each found
  have tallies : a.Tallies (drawnUnder _ owner) := (tallied owner).2 a found
  have start := Records.fresh limits (Account.Within limits) retention
  have feesBound : a.totals.fees.toNat ≤ fees.length * limits.feeCap.toNat := by
    rw [tallies.fees]
    exact Amount.total_le (path.drawnUnder_le inv start)
  have tradesBound : a.totals.traded.toNat ≤ trades.length * limits.tradeCap.toNat := by
    rw [tallies.traded]
    exact Amount.total_le (path.drawnUnder_le inv start)
  refine ⟨granted, decimals, deposits, traded, tallies.nonce.symm, feesBound, tradesBound, ?_⟩
  rw [Amount.lt_iff_toNat_lt] at feeBelow
  calc
    a.totals.fees.toNat + a.totals.traded.toNat
        ≤ fees.length * limits.feeCap.toNat + trades.length * limits.tradeCap.toNat :=
      Nat.add_le_add feesBound tradesBound
    _ ≤ fees.length * limits.tradeCap.toNat + trades.length * limits.tradeCap.toNat :=
      -- A fee is worth less than a trade at most.
      Nat.add_le_add_right (Nat.mul_le_mul_left _ (Nat.le_of_lt feeBelow)) _
    _ = a.nonce.toNat * limits.tradeCap.toNat := by
      rw [← Nat.add_mul, tallies.nonce]

/-- A run in which an escrow with caps on deposits and trades is used to the full.  The
second deposit and the second trade are one unit too many. -/
def tenancy : List Step :=
  [.issue (.wallet (.ofSeed 1)) .usdc ⟨100⟩,
    .submit ⟨.ofSeed 1, .create .usdc 0 ⟨some ⟨60⟩, some ⟨20⟩⟩⟩,
    .submit ⟨.ofSeed 1, .act (.ofSeed 1) (.deposit ⟨60⟩)⟩,
    .submit ⟨.ofSeed 1, .act (.ofSeed 1) (.deposit ⟨1⟩)⟩,
    .submit ⟨.ofSeed 1, .act (.ofSeed 1) (.delegate .platform (.ofSeed 100))⟩,
    .submit ⟨.ofSeed 1, .act (.ofSeed 1) (.delegate .trading (.ofSeed 200))⟩,
    .setTime ⟨300⟩,
    .submit ⟨.ofSeed 100, .act (.ofSeed 1) (.collectFee ⟨10⟩ 0)⟩,
    .submit ⟨.ofSeed 200, .act (.ofSeed 1) (.trade ⟨20⟩ 1 ⟨300⟩)⟩,
    .submit ⟨.ofSeed 200, .act (.ofSeed 1) (.trade ⟨1⟩ 2 ⟨300⟩)⟩,
    .submit ⟨.ofSeed 100, .act (.ofSeed 1) (.collectFee ⟨5⟩ 2)⟩]

/-- The record at its end. -/
def tenant : Account where
  owner := .ofSeed 1
  mint := .usdc
  platform := .delegated (.ofSeed 100) ⟨0⟩
  trading := .delegated (.ofSeed 200) ⟨0⟩
  status := .active
  balance := ⟨25⟩
  ceiling := Limits.standard.defaultCeiling
  caps := ⟨some ⟨60⟩, some ⟨20⟩⟩
  lifetime := none
  createdAt := ⟨0⟩
  pausedAt := none
  nonce := 3
  totals := ⟨⟨60⟩, 0, ⟨15⟩, ⟨20⟩⟩

/-- Both caps are reached and kept, and the three nonces are two fees and one trade. -/
theorem tenancy_within_limits :
    let start := Ledger.fresh .standard 8
    (start.run tenancy).escrow? (.ofSeed 1) = some tenant ∧
      tenant.totals.deposited ≤ ⟨60⟩ ∧ tenant.totals.traded ≤ ⟨20⟩ ∧
      (drawnUnder (start.trace tenancy) (.ofSeed 1) .platform).length +
          (drawnUnder (start.trace tenancy) (.ofSeed 1) .trading).length = 3 ∧
      tenant.totals.fees.toNat + tenant.totals.traded.toNat ≤
        3 * Limits.standard.tradeCap.toNat := by
  intro start
  have found : (start.run tenancy).escrow? (.ofSeed 1) = some tenant := by decide +kernel
  obtain ⟨-, -, deposits, traded, spent, -, -, drawn⟩ :=
    limits_hold_throughout .standard 8 start (start_standard 8) tenancy (.ofSeed 1) tenant found
  exact ⟨found, deposits _ rfl, traded _ rfl, spent, drawn⟩

end Ledger

end DelegatedEscrow
