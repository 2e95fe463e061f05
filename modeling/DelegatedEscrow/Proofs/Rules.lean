/-
DelegatedEscrow/Proofs/Rules.lean

When a rule lets an instruction through, and what it then stages.

A rule is written as a list of guards, in the order in which their faults win.
Here each rule is restated as what is true when all of its guards have passed:
one equivalence for each guard, and from these one for each of the twelve
rules, with sums and differences in `Nat`.  Nothing after this module unfolds a
rule; whoever wants to know what an accepted instruction means takes the
equivalence of its rule apart.
-/
import DelegatedEscrow.Transition

namespace DelegatedEscrow

/-- A guard that yields nothing only has to pass. -/
theorem unit_bind_eq_ok_iff {ε β : Type} {x : Except ε Unit} {f : Unit → Except ε β} {b : β} :
    x >>= f = .ok b ↔ x = .ok () ∧ f () = .ok b := by
  rw [bind_eq_ok_iff]
  exact ⟨fun ⟨_, passed, rest⟩ => ⟨passed, rest⟩, fun ⟨passed, rest⟩ => ⟨(), passed, rest⟩⟩

/-! ### Guards -/

theorem requirePositive_eq_ok_iff {amount : Amount} {u : Unit} :
    requirePositive amount = .ok u ↔ 0 < amount.toNat := by
  rw [requirePositive, require_eq_ok_iff, ne_eq, Amount.eq_zero_iff]
  omega

theorem raised_eq_ok_iff {total amount sum : Amount} {cap : Cap} {limit : Option Amount} :
    raised total amount cap limit = .ok sum ↔
      sum.toNat = total.toNat + amount.toNat ∧ ∀ l, limit = some l → sum ≤ l := by
  rw [raised, bind_eq_ok_iff]
  simp only [demand_eq_ok_iff, Amount.add?_eq_some_iff]
  cases limit with
  | none => simp
  | some l =>
    simp only [unit_bind_eq_ok_iff, require_eq_ok_iff, pure_eq_ok_iff, Option.some.injEq,
      forall_eq']
    constructor
    · rintro ⟨_, reached, held, rfl⟩
      exact ⟨reached, held⟩
    · rintro ⟨reached, held⟩
      exact ⟨sum, reached, held, rfl⟩

namespace Account

variable {a b : Account} {s : Setting} {signer d : Identity} {k : Authority}
variable {amount balance : Amount} {nonce : Nonce} {t : Transition} {u : Unit}

theorem requireOpen_eq_ok_iff : a.requireOpen = .ok u ↔ a.status ≠ .closed :=
  require_eq_ok_iff

theorem requireActive_eq_ok_iff : a.requireActive = .ok u ↔ a.status = .active := by
  rw [requireActive, unit_bind_eq_ok_iff, requireOpen_eq_ok_iff, require_eq_ok_iff]
  cases a.status <;> simp

theorem requireOwner_eq_ok_iff : a.requireOwner signer = .ok u ↔ signer = a.owner :=
  require_eq_ok_iff

theorem requireDelegate_eq_ok_iff :
    a.requireDelegate k signer = .ok u ↔ (a.slot k).delegate? = some signer := by
  simp only [requireDelegate, bind_eq_ok_iff, demand_eq_ok_iff, require_eq_ok_iff]
  constructor
  · rintro ⟨_, taken, rfl⟩
    exact taken
  · intro taken
    exact ⟨signer, taken, rfl⟩

theorem requireMature_eq_ok_iff {now : Timestamp} {age : Seconds} :
    a.requireMature k signer now age = .ok u ↔
      (a.slot k).delegate? = some signer ∧ (a.slot k).Mature now age := by
  rw [requireMature, unit_bind_eq_ok_iff, requireDelegate_eq_ok_iff, Slot.Mature]
  simp only [bind_eq_ok_iff, demand_eq_ok_iff, require_eq_ok_iff]
  constructor
  · rintro ⟨taken, _, remaining, rfl⟩
    exact ⟨taken, remaining⟩
  · rintro ⟨taken, elapsed⟩
    exact ⟨taken, 0, elapsed, rfl⟩

theorem not_delegated_iff : ¬ a.Delegated ↔ a.platform = .empty ∧ a.trading = .empty := by
  simp [Delegated]

theorem requireUndelegated_eq_ok_iff : a.requireUndelegated = .ok u ↔ ¬ a.Delegated :=
  require_eq_ok_iff

theorem requireUnexpired_eq_ok_iff {now : Timestamp} :
    a.requireUnexpired now = .ok u ↔ ¬ a.Expired now :=
  require_eq_ok_iff

theorem requireNonce_eq_ok_iff : a.requireNonce nonce = .ok u ↔ nonce = a.nonce :=
  require_eq_ok_iff

theorem debited_eq_ok_iff :
    a.debited amount = .ok balance ↔ balance.toNat + amount.toNat = a.balance.toNat := by
  rw [debited, demand_eq_ok_iff, Amount.sub?_eq_some_iff]

theorem spendNonce_eq_ok_iff :
    a.spendNonce = .ok b ↔
      a.nonce ≠ UInt64.ofNat (UInt64.size - 1) ∧ b = { a with nonce := a.nonce + 1 } := by
  rw [spendNonce, unit_bind_eq_ok_iff, require_eq_ok_iff, pure_eq_ok_iff, eq_comm (b := b)]

/-- The guards with which every rule of an active escrow's owner begins. -/
theorem owner_active_eq_ok_iff {α : Type} {rest : Except Fault α} {x : α} :
    (do a.requireOpen; a.requireOwner signer; a.requireActive; rest) = .ok x ↔
      signer = a.owner ∧ a.status = .active ∧ rest = .ok x := by
  simp only [unit_bind_eq_ok_iff, requireOpen_eq_ok_iff, requireOwner_eq_ok_iff,
    requireActive_eq_ok_iff]
  constructor
  · rintro ⟨-, owns, active, staged⟩
    exact ⟨owns, active, staged⟩
  · rintro ⟨owns, active, staged⟩
    exact ⟨by simp [active], owns, active, staged⟩

/-- The guards with which every rule of a paused escrow's owner begins. -/
theorem owner_paused_eq_ok_iff {α : Type} {rest : Except Fault α} {x : α} :
    (do
        a.requireOpen
        a.requireOwner signer
        require (a.status = Status.paused) Fault.notPaused
        rest) = .ok x ↔
      signer = a.owner ∧ a.status = .paused ∧ rest = .ok x := by
  simp only [unit_bind_eq_ok_iff, requireOpen_eq_ok_iff, requireOwner_eq_ok_iff,
    require_eq_ok_iff]
  constructor
  · rintro ⟨-, owns, paused, staged⟩
    exact ⟨owns, paused, staged⟩
  · rintro ⟨owns, paused, staged⟩
    exact ⟨by simp [paused], owns, paused, staged⟩

/-! ### Funds -/

theorem deposit_eq_ok_iff :
    a.deposit s signer amount = .ok t ↔
      signer = a.owner ∧ a.status = .active ∧ 0 < amount.toNat ∧ ¬ a.Expired s.now ∧
        ∃ balance, balance.toNat = a.balance.toNat + amount.toNat ∧ balance ≤ a.ceiling ∧
          ∃ deposited, deposited.toNat = a.totals.deposited.toNat + amount.toNat ∧
            (∀ l, a.caps.deposits = some l → deposited ≤ l) ∧
            t = .payIn { a with balance, totals := { a.totals with deposited } } .deposit
              signer amount := by
  rw [deposit, owner_active_eq_ok_iff]
  simp only [bind_eq_ok_iff, requirePositive_eq_ok_iff, requireUnexpired_eq_ok_iff,
    demand_eq_ok_iff, Amount.add?_eq_some_iff, require_eq_ok_iff, raised_eq_ok_iff,
    pure_eq_ok_iff, exists_const, and_assoc, eq_comm (b := t)]

theorem takeBack_eq_ok_iff {flow : Flow} :
    a.takeBack signer flow amount = .ok t ↔
      0 < amount.toNat ∧ ¬ a.Delegated ∧
        ∃ balance, balance.toNat + amount.toNat = a.balance.toNat ∧
          ∃ withdrawn, withdrawn.toNat = a.totals.withdrawn.toNat + amount.toNat ∧
            t = .payOut { a with balance, totals := { a.totals with withdrawn } } flow
              signer amount := by
  simp only [takeBack, bind_eq_ok_iff, requirePositive_eq_ok_iff, requireUndelegated_eq_ok_iff,
    debited_eq_ok_iff, demand_eq_ok_iff, Amount.add?_eq_some_iff, pure_eq_ok_iff, exists_const,
    eq_comm (b := t)]

theorem withdraw_eq_ok_iff :
    a.withdraw signer amount = .ok t ↔
      signer = a.owner ∧ a.status = .active ∧ a.takeBack signer .withdrawal amount = .ok t :=
  owner_active_eq_ok_iff

theorem emergencyWithdraw_eq_ok_iff :
    a.emergencyWithdraw signer amount = .ok t ↔
      signer = a.owner ∧ a.status = .paused ∧
        a.takeBack signer .emergencyWithdrawal amount = .ok t :=
  owner_paused_eq_ok_iff

theorem requireSpendable_eq_ok_iff :
    a.requireSpendable s signer k amount nonce = .ok u ↔
      a.status = .active ∧ (a.slot k).delegate? = some signer ∧ 0 < amount.toNat ∧
        (a.slot k).Mature s.now s.limits.lockAge ∧ nonce = a.nonce := by
  simp only [requireSpendable, unit_bind_eq_ok_iff, requireActive_eq_ok_iff,
    requireDelegate_eq_ok_iff, requirePositive_eq_ok_iff, requireMature_eq_ok_iff,
    requireNonce_eq_ok_iff]
  constructor
  · rintro ⟨active, taken, positive, ⟨-, mature⟩, next⟩
    exact ⟨active, taken, positive, mature, next⟩
  · rintro ⟨active, taken, positive, mature, next⟩
    exact ⟨active, taken, positive, ⟨taken, mature⟩, next⟩

theorem collectFee_eq_ok_iff :
    a.collectFee s signer amount nonce = .ok t ↔
      a.requireSpendable s signer .platform amount nonce = .ok () ∧ amount ≤ s.limits.feeCap ∧
        ∃ balance, balance.toNat + amount.toNat = a.balance.toNat ∧
          ∃ fees, fees.toNat = a.totals.fees.toNat + amount.toNat ∧
            a.nonce ≠ UInt64.ofNat (UInt64.size - 1) ∧
            t = .payOut { a with
                balance, totals := { a.totals with fees }, nonce := a.nonce + 1 }
              .subscriptionFee signer amount := by
  rw [collectFee, unit_bind_eq_ok_iff]
  simp only [bind_eq_ok_iff, require_eq_ok_iff, debited_eq_ok_iff, demand_eq_ok_iff,
    Amount.add?_eq_some_iff, spendNonce_eq_ok_iff, pure_eq_ok_iff, and_assoc, exists_and_left,
    exists_eq_left, exists_const, eq_comm (b := t)]

theorem trade_eq_ok_iff {deadline : Timestamp} :
    a.trade s signer amount nonce deadline = .ok t ↔
      a.requireSpendable s signer .trading amount nonce = .ok () ∧ s.now ≤ deadline ∧
        amount ≤ s.limits.tradeCap ∧
        ∃ traded, traded.toNat = a.totals.traded.toNat + amount.toNat ∧
          (∀ l, a.caps.traded = some l → traded ≤ l) ∧
          ∃ balance, balance.toNat + amount.toNat = a.balance.toNat ∧
            a.nonce ≠ UInt64.ofNat (UInt64.size - 1) ∧
            t = .payOut { a with
                balance, totals := { a.totals with traded }, nonce := a.nonce + 1 }
              .tradeWithdrawal signer amount := by
  rw [trade, unit_bind_eq_ok_iff]
  simp only [bind_eq_ok_iff, require_eq_ok_iff, raised_eq_ok_iff, debited_eq_ok_iff,
    spendNonce_eq_ok_iff, pure_eq_ok_iff, and_assoc, exists_and_left, exists_eq_left,
    exists_const, eq_comm (b := t)]

/-! ### Delegation -/

theorem delegate_eq_ok_iff :
    a.delegate s signer k d = .ok t ↔
      signer = a.owner ∧ a.status = .active ∧ ¬ a.Expired s.now ∧
        (d ≠ .unset ∧ d ≠ a.owner) ∧ a.slot k = .empty ∧
        t = .silent (a.setSlot k (.delegated d s.now))
          (.delegated k d (s.now.plus s.limits.lockAge)) := by
  rw [delegate, owner_active_eq_ok_iff]
  simp only [unit_bind_eq_ok_iff, requireUnexpired_eq_ok_iff, require_eq_ok_iff,
    pure_eq_ok_iff, eq_comm (b := t)]

theorem revoke_eq_ok_iff :
    a.revoke signer k = .ok t ↔
      signer = a.owner ∧ a.status = .active ∧
        ∃ d, (a.slot k).delegate? = some d ∧
          t = .silent (a.setSlot k .empty) (.revoked k d) := by
  rw [revoke, owner_active_eq_ok_iff]
  simp only [bind_eq_ok_iff, demand_eq_ok_iff, pure_eq_ok_iff, eq_comm (b := t)]

/-! ### Life -/

theorem pause_eq_ok_iff :
    a.pause s signer = .ok t ↔
      signer = a.owner ∧ a.status = .active ∧
        t = .silent { a with status := .paused, pausedAt := some s.now } .paused := by
  simp only [pause, unit_bind_eq_ok_iff, requireOpen_eq_ok_iff, requireOwner_eq_ok_iff,
    require_eq_ok_iff, pure_eq_ok_iff, eq_comm (b := t)]
  cases a.status <;> simp

theorem unpause_eq_ok_iff :
    a.unpause s signer = .ok t ↔
      signer = a.owner ∧ a.status = .paused ∧
        a.cooldownRemaining s.now s.limits.cooldown ≤ 0 ∧
        t = .silent { a with status := .active } .unpaused := by
  rw [unpause, owner_paused_eq_ok_iff]
  simp only [unit_bind_eq_ok_iff, require_eq_ok_iff, pure_eq_ok_iff, eq_comm (b := t)]

theorem setLifetime_eq_ok_iff {secs : Seconds} :
    a.setLifetime signer secs = .ok t ↔
      signer = a.owner ∧ a.status = .active ∧ 0 ≤ secs ∧
        t = .silent { a with lifetime := if 0 < secs then some secs else none }
          (.lifetimeSet secs) := by
  rw [setLifetime, owner_active_eq_ok_iff]
  simp only [unit_bind_eq_ok_iff, require_eq_ok_iff, pure_eq_ok_iff, eq_comm (b := t)]

theorem close_eq_ok_iff :
    a.close s signer = .ok t ↔
      a.status ≠ .closed ∧ signer = a.owner ∧ (a.balance ≤ s.limits.dust ∧ ¬ a.Delegated) ∧
        ∃ withdrawn, withdrawn.toNat = a.totals.withdrawn.toNat + a.balance.toNat ∧
          t = {
            account :=
              { a with status := .closed, balance := 0, totals := { a.totals with withdrawn } }
            movement :=
              if a.balance = 0 then none else some ⟨.vault a.owner, .wallet a.owner, a.balance⟩
            payload := .closed a.balance } := by
  simp only [close, bind_eq_ok_iff, requireOpen_eq_ok_iff, requireOwner_eq_ok_iff,
    require_eq_ok_iff, demand_eq_ok_iff, Amount.add?_eq_some_iff, pure_eq_ok_iff, exists_const,
    eq_comm (b := t)]

end Account

/-! ### Creation -/

theorem Setting.create_eq_ok_iff {s : Setting} {owner : Identity} {mint : Mint}
    {ceiling : Amount} {caps : LifetimeCaps} {t : Transition} :
    s.create owner mint ceiling caps = .ok t ↔
      s.limits.AcceptsDecimals mint.decimals ∧ ceiling ≤ s.limits.hardCeiling ∧
        ∃ granted, granted = (if ceiling = 0 then s.limits.defaultCeiling else ceiling) ∧
          t = .silent (.new owner mint granted caps s.now) (.opened mint granted) := by
  simp only [create, unit_bind_eq_ok_iff, require_eq_ok_iff, pure_eq_ok_iff, exists_eq_left,
    eq_comm (b := t)]

end DelegatedEscrow
