/-
DelegatedEscrow/Proofs/Headroom.lean

Room in the word.  All that an escrow counts is part of what was deposited, and that
fits into a word.  This holds of the nonce as well: every spending of a delegate takes
at least one unit, so the nonce cannot get ahead of the units taken,

    nonce  ≤  fees + traded  ≤  deposited  <  2 ^ 64

in every record that a run brings about.  The rules nevertheless check each of their
sums.  Here the checks are gone through one by one: where the amount is covered by the
balance none of them can fail, and the two that can fail do so on a deposit or a trade
of more than the word has room for.
-/
import DelegatedEscrow.Proofs.Exactness
import DelegatedEscrow.Proofs.Soundness

namespace DelegatedEscrow

/-! ### The nonce and the units taken -/

/-- What the delegates have taken, in all. -/
def Totals.spent (t : Totals) : Nat := t.fees.toNat + t.traded.toNat

/-- The nonce has not got ahead of the units that the delegates have taken. -/
def Account.Paced (a : Account) : Prop := a.nonce.toNat ≤ a.totals.spent

/-- An action that uses up a nonce takes a unit at least, and none gives any back. -/
theorem Action.spent_stage {s : Setting} {signer : Identity} {a : Account} {action : Action}
    {t : Transition} (h : action.stage s signer a = .ok t) :
    a.totals.spent + (if action.nonce?.isSome then 1 else 0) ≤ t.account.totals.spent := by
  have fees : a.totals.fees ≤ t.account.totals.fees := (booked h).monotone .fees
  have traded : a.totals.traded ≤ t.account.totals.traded := (booked h).monotone .traded
  rw [Amount.le_iff_toNat_le] at fees traded
  cases action with
  | collectFee amount nonce =>
    obtain ⟨spendable, -, _, -, taken, sum, -, rfl⟩ := Account.collectFee_eq_ok_iff.1 h
    obtain ⟨-, -, positive, -⟩ := Account.requireSpendable_eq_ok_iff.1 spendable
    show a.totals.fees.toNat + a.totals.traded.toNat + 1 ≤ taken.toNat + a.totals.traded.toNat
    omega
  | trade amount nonce deadline =>
    obtain ⟨spendable, -, -, taken, sum, -, _, -, -, rfl⟩ := Account.trade_eq_ok_iff.1 h
    obtain ⟨-, -, positive, -⟩ := Account.requireSpendable_eq_ok_iff.1 spendable
    show a.totals.fees.toNat + a.totals.traded.toNat + 1 ≤ a.totals.fees.toNat + taken.toNat
    omega
  | _ =>
    show a.totals.fees.toNat + a.totals.traded.toNat ≤ _
    exact Nat.add_le_add fees traded

namespace Account

variable {s : Setting} {signer owner : Identity} {a : Account} {action : Action}
variable {t : Transition} {amount : Amount} {nonce : Nonce} {deadline : Timestamp}

theorem paced_stage (paced : a.Paced) (h : action.stage s signer a = .ok t) :
    t.account.Paced := by
  have taken := Action.spent_stage h
  have advances := (Action.stage_effect h).nonce
  unfold Paced at paced ⊢
  rcases e : action.nonce? with - | n
  · rw [e] at advances taken
    have kept : t.account.nonce = a.nonce := advances
    rw [kept]
    exact Nat.le_trans paced taken
  · rw [e] at advances taken
    obtain ⟨-, next⟩ := advances
    rw [next]
    exact Nat.le_trans (Nat.add_le_add_right paced 1) taken

/-- A new escrow has spent nothing. -/
theorem paced_create {mint : Mint} {ceiling : Amount} {caps : LifetimeCaps}
    (h : s.create owner mint ceiling caps = .ok t) : t.account.Paced := by
  obtain ⟨-, -, -, unspent⟩ := Setting.create_effect h
  rw [Paced, unspent]
  exact Nat.zero_le _

theorem paced_invariant (limits : Limits) : Invariant limits Paced where
  opened := paced_create
  acted := paced_stage

theorem sound_paced_invariant (limits : Limits) :
    Invariant limits fun a => a.Sound ∧ a.Paced :=
  (sound_invariant limits).and (paced_invariant limits)

/-- What has been taken and what is left was deposited. -/
theorem Sound.spent_add_balance_le (sound : a.Sound) :
    a.totals.spent + a.balance.toNat ≤ a.totals.deposited.toNat := by
  have accounted := sound.deposited_eq
  unfold Totals.outflow at accounted
  unfold Totals.spent
  omega

/-- While there is a unit left, there is a nonce left. -/
theorem Paced.nonce_ne_last (paced : a.Paced) (sound : a.Sound) (funded : 0 < a.balance.toNat) :
    a.nonce ≠ UInt64.ofNat (UInt64.size - 1) := by
  intro last
  have all : a.nonce.toNat = UInt64.size - 1 := by rw [last]; rfl
  have parts := sound.spent_add_balance_le
  have room := a.totals.deposited.toNat_lt
  unfold Paced at paced
  omega

/-! ### Where a sum can overflow

The checks of one rule after the other.  A guard before the sums has a fault of its own,
so an overflow means that it has passed. -/

theorem raised_eq_overflow_iff {total : Amount} {cap : Cap} {limit : Option Amount} :
    raised total amount cap limit = .error .overflow ↔
      UInt64.size ≤ total.toNat + amount.toNat := by
  rw [raised, bind_eq_error_iff, demand_eq_error_iff, Amount.add?_eq_none_iff]
  cases limit with
  | none => simp
  | some l => simp only [bind_eq_error_iff, require_eq_error_iff, pure_ne_error, reduceCtorEq,
      and_false, exists_false, or_false, and_true]

theorem debited_ne_overflow : a.debited amount ≠ .error .overflow := by
  simp [debited]

theorem requireSpendable_ne_overflow {k : Authority} :
    a.requireSpendable s signer k amount nonce ≠ .error .overflow := by
  simp [requireSpendable, requireActive, requireOpen, requireDelegate, requirePositive,
    requireMature, requireNonce, bind_eq_error_iff]

theorem spendNonce_eq_overflow_iff :
    a.spendNonce = .error .overflow ↔ a.nonce = UInt64.ofNat (UInt64.size - 1) := by
  simp [-bind_pure_comp, spendNonce, bind_eq_error_iff]

theorem deposit_overflow (h : a.deposit s signer amount = .error .overflow) :
    UInt64.size ≤ a.balance.toNat + amount.toNat ∨
      UInt64.size ≤ a.totals.deposited.toNat + amount.toNat := by
  simp only [deposit, requireOpen, requireOwner, requireActive, requirePositive,
    requireUnexpired, bind_eq_error_iff, require_eq_error_iff, demand_eq_error_iff,
    raised_eq_overflow_iff, pure_ne_error, reduceCtorEq, Amount.add?_eq_none_iff, and_false,
    and_true, false_or, or_false, exists_false] at h
  obtain ⟨_, -, _, -, _, -, _, -, _, -, balance | ⟨_, -, _, -, deposited⟩⟩ := h
  · exact .inl balance
  · exact .inr deposited

theorem takeBack_overflow {flow : Flow} (h : a.takeBack signer flow amount = .error .overflow) :
    amount.toNat ≤ a.balance.toNat ∧ UInt64.size ≤ a.totals.withdrawn.toNat + amount.toNat := by
  simp only [takeBack, requirePositive, requireUndelegated, bind_eq_error_iff,
    require_eq_error_iff, demand_eq_error_iff, debited_ne_overflow, debited_eq_ok_iff,
    pure_ne_error, reduceCtorEq, Amount.add?_eq_none_iff, and_false, and_true, false_or,
    or_false, exists_false] at h
  obtain ⟨_, -, _, -, left, covered, withdrawn⟩ := h
  exact ⟨by omega, withdrawn⟩

theorem withdraw_overflow (h : a.withdraw signer amount = .error .overflow) :
    a.takeBack signer .withdrawal amount = .error .overflow := by
  simp only [withdraw, requireOpen, requireOwner, requireActive, bind_eq_error_iff,
    require_eq_error_iff, reduceCtorEq, and_false, false_or, exists_false, or_false] at h
  obtain ⟨_, -, _, -, _, -, taken⟩ := h
  exact taken

theorem emergencyWithdraw_overflow (h : a.emergencyWithdraw signer amount = .error .overflow) :
    a.takeBack signer .emergencyWithdrawal amount = .error .overflow := by
  simp only [emergencyWithdraw, requireOpen, requireOwner, bind_eq_error_iff,
    require_eq_error_iff, reduceCtorEq, and_false, false_or] at h
  obtain ⟨_, -, _, -, _, -, taken⟩ := h
  exact taken

theorem collectFee_overflow (h : a.collectFee s signer amount nonce = .error .overflow) :
    0 < amount.toNat ∧ amount.toNat ≤ a.balance.toNat ∧
      (UInt64.size ≤ a.totals.fees.toNat + amount.toNat ∨
        a.nonce = UInt64.ofNat (UInt64.size - 1)) := by
  simp only [collectFee, bind_eq_error_iff, requireSpendable_ne_overflow, require_eq_error_iff,
    demand_eq_error_iff, debited_ne_overflow, debited_eq_ok_iff, spendNonce_eq_overflow_iff,
    requireSpendable_eq_ok_iff, pure_ne_error, reduceCtorEq, Amount.add?_eq_none_iff, and_false,
    and_true, false_or, or_false, exists_false] at h
  obtain ⟨_, ⟨-, -, positive, -⟩, _, -, left, covered, fees | ⟨_, -, last⟩⟩ := h
  · exact ⟨positive, by omega, .inl fees⟩
  · exact ⟨positive, by omega, .inr last⟩

theorem trade_overflow (h : a.trade s signer amount nonce deadline = .error .overflow) :
    UInt64.size ≤ a.totals.traded.toNat + amount.toNat ∨
      0 < amount.toNat ∧ amount.toNat ≤ a.balance.toNat ∧
        a.nonce = UInt64.ofNat (UInt64.size - 1) := by
  simp only [trade, bind_eq_error_iff, requireSpendable_ne_overflow, require_eq_error_iff,
    raised_eq_overflow_iff, debited_ne_overflow, debited_eq_ok_iff, spendNonce_eq_overflow_iff,
    requireSpendable_eq_ok_iff, pure_ne_error, reduceCtorEq, and_false, false_or, or_false,
    exists_false] at h
  obtain ⟨_, ⟨-, -, positive, -⟩, _, -, _, -, traded | ⟨_, -, left, covered, last⟩⟩ := h
  · exact .inl traded
  · exact .inr ⟨positive, by omega, last⟩

theorem close_overflow (h : a.close s signer = .error .overflow) :
    UInt64.size ≤ a.totals.withdrawn.toNat + a.balance.toNat := by
  simp only [close, requireOpen, requireOwner, bind_eq_error_iff, require_eq_error_iff,
    demand_eq_error_iff, pure_ne_error, reduceCtorEq, Amount.add?_eq_none_iff, and_false,
    and_true, false_or, or_false, exists_false] at h
  obtain ⟨_, -, _, -, _, -, withdrawn⟩ := h
  exact withdrawn

end Account

/-- On a record whose counts are in order, a sum overflows only if a deposit or a trade
is larger than the word has room for; such a trade is also larger than the balance. -/
theorem Action.stage_overflow {s : Setting} {signer : Identity} {a : Account} {action : Action}
    (sound : a.Sound) (paced : a.Paced) (h : action.stage s signer a = .error .overflow) :
    (∃ amount, action = .deposit amount ∧
        UInt64.size ≤ a.totals.deposited.toNat + amount.toNat) ∨
      ∃ amount nonce deadline, action = .trade amount nonce deadline ∧
        UInt64.size ≤ a.totals.traded.toNat + amount.toNat ∧ a.balance < amount := by
  have accounted := sound.deposited_eq
  have room := a.totals.deposited.toNat_lt
  unfold Totals.outflow at accounted
  -- What is paid out was deposited, and so was what has gone out before.
  have takeBack : ∀ {flow amount}, a.takeBack signer flow amount ≠ .error .overflow := by
    intro flow amount blamed
    obtain ⟨covered, withdrawn⟩ := Account.takeBack_overflow blamed
    omega
  cases action with
  | deposit amount =>
    refine .inl ⟨amount, rfl, ?_⟩
    rcases Account.deposit_overflow h with balance | deposited
    · omega
    · exact deposited
  | withdraw amount => exact absurd (Account.withdraw_overflow h) takeBack
  | emergencyWithdraw amount => exact absurd (Account.emergencyWithdraw_overflow h) takeBack
  | collectFee amount nonce =>
    exfalso
    obtain ⟨positive, covered, fees | last⟩ := Account.collectFee_overflow h
    · omega
    · exact paced.nonce_ne_last sound (by omega) last
  | trade amount nonce deadline =>
    refine .inr ⟨amount, nonce, deadline, rfl, ?_⟩
    rcases Account.trade_overflow h with traded | ⟨positive, covered, last⟩
    · exact ⟨traded, Amount.lt_iff_toNat_lt.2 (by omega)⟩
    · exact absurd last (paced.nonce_ne_last sound (by omega))
  | close =>
    exfalso
    have withdrawn := Account.close_overflow h
    omega
  | delegate k d =>
    simp [-bind_pure_comp, stage, Account.delegate, Account.requireOpen, Account.requireOwner,
      Account.requireActive, Account.requireUnexpired, bind_eq_error_iff] at h
  | revoke k =>
    simp [-bind_pure_comp, stage, Account.revoke, Account.requireOpen, Account.requireOwner,
      Account.requireActive, bind_eq_error_iff] at h
  | pause =>
    simp [-bind_pure_comp, stage, Account.pause, Account.requireOpen, Account.requireOwner,
      bind_eq_error_iff] at h
  | unpause =>
    simp [-bind_pure_comp, stage, Account.unpause, Account.requireOpen, Account.requireOwner,
      bind_eq_error_iff] at h
  | setLifetime secs =>
    simp [-bind_pure_comp, stage, Account.setLifetime, Account.requireOpen, Account.requireOwner,
      Account.requireActive, bind_eq_error_iff] at h

/-! ### Along a run -/

namespace Ledger

variable {limits : Limits} {l : Ledger} {i : Signed}

/-- An instruction that overflows was stopped by its rule, and that is a deposit or a
trade that is too large. -/
theorem Records.submit_overflow (records : l.Records limits fun a => a.Sound ∧ a.Paced)
    (refused : (l.submit i).2 = .error .overflow) :
    ∃ owner a, l.escrow? owner = some a ∧
      ((∃ amount, i.instruction = .act owner (.deposit amount) ∧
          UInt64.size ≤ a.totals.deposited.toNat + amount.toNat) ∨
        ∃ amount nonce deadline, i.instruction = .act owner (.trade amount nonce deadline) ∧
          UInt64.size ≤ a.totals.traded.toNat + amount.toNat ∧ a.balance < amount) := by
  rcases submit_cases l i with ⟨f, unstaged, e⟩ | ⟨_, _, f, -, -, e⟩ | ⟨_, _, -, -, e⟩
  · rw [e] at refused
    obtain rfl : f = .overflow := Except.error.inj refused
    obtain ⟨signer, ⟨mint, ceiling, caps⟩ | ⟨owner, action⟩⟩ := i
    · simp [-bind_pure_comp, Ledger.stage, Setting.create, bind_eq_error_iff] at unstaged
    · simp only [Ledger.stage, escrow, bind_eq_error_iff, demand_eq_error_iff, demand_eq_ok_iff,
        reduceCtorEq, and_false, false_or] at unstaged
      obtain ⟨a, found, blamed⟩ := unstaged
      obtain ⟨sound, paced⟩ := records.each found
      refine ⟨owner, a, found, ?_⟩
      rcases Action.stage_overflow sound paced blamed with
        ⟨amount, rfl, deposited⟩ | ⟨amount, nonce, deadline, rfl, traded⟩
      · exact .inl ⟨amount, rfl, deposited⟩
      · exact .inr ⟨amount, nonce, deadline, rfl, traded⟩
  · -- A purse that is too full is the fault of custody.
    rw [e] at refused
    cases refused
  · rw [e] at refused
    cases refused

/-- **Room in the word.**  In every record that a run brings about the nonce is at most
what the delegates have taken, and that is at most what was deposited; so whenever an
amount is covered by the balance, there is a nonce left to spend on it.  Of all
instructions only two can ever overflow: a deposit that would carry the total beyond
the word, and a trade that would, which then is larger than the balance as well. -/
theorem overflow_needs_excess (limits : Limits) (retention : Nat) (steps : List Step) :
    let l := (Ledger.fresh limits retention).run steps
    (∀ owner a, l.escrow? owner = some a →
        a.nonce.toNat ≤ a.totals.fees.toNat + a.totals.traded.toNat ∧
          a.totals.fees.toNat + a.totals.traded.toNat ≤ a.totals.deposited.toNat ∧
          a.totals.deposited.toNat < UInt64.size ∧
          ∀ amount balance totals, 0 < amount.toNat → a.debited amount = .ok balance →
            ∃ b, { a with balance, totals }.spendNonce = .ok b) ∧
      ∀ i, (l.submit i).2 = .error .overflow →
        ∃ owner a, l.escrow? owner = some a ∧
          ((∃ amount, i.instruction = .act owner (.deposit amount) ∧
              UInt64.size ≤ a.totals.deposited.toNat + amount.toNat) ∨
            ∃ amount nonce deadline, i.instruction = .act owner (.trade amount nonce deadline) ∧
              UInt64.size ≤ a.totals.traded.toNat + amount.toNat ∧ a.balance < amount) := by
  intro l
  have records : l.Records limits fun a => a.Sound ∧ a.Paced :=
    (Records.run (Account.sound_paced_invariant limits) retention steps).1
  refine ⟨fun owner a found => ?_, fun i refused => records.submit_overflow refused⟩
  obtain ⟨sound, paced⟩ := records.each found
  have parts := sound.spent_add_balance_le
  refine ⟨paced, ?_, a.totals.deposited.toNat_lt, ?_⟩
  · exact Nat.le_trans (Nat.le_add_right _ _) parts
  · intro amount balance totals positive covered
    rw [Account.debited_eq_ok_iff] at covered
    exact ⟨_, Account.spendNonce_eq_ok_iff.2
      ⟨paced.nonce_ne_last sound (by omega), rfl⟩⟩

/-- Limits that cap nothing. -/
def generous : Limits :=
  { Limits.standard with hardCeiling := ⟨18446744073709551615⟩, tradeCap := ⟨18446744073709551615⟩ }

/-- A deposit of all units that a word can count, of which one is then traded away. -/
def abundance : List Step :=
  [.issue (.wallet (.ofSeed 1)) .usdc ⟨18446744073709551615⟩,
    .submit ⟨.ofSeed 1, .create .usdc ⟨18446744073709551615⟩ .unlimited⟩,
    .submit ⟨.ofSeed 1, .act (.ofSeed 1) (.deposit ⟨18446744073709551615⟩)⟩,
    .submit ⟨.ofSeed 1, .act (.ofSeed 1) (.delegate .trading (.ofSeed 2))⟩,
    .setTime ⟨300⟩,
    .submit ⟨.ofSeed 2, .act (.ofSeed 1) (.trade ⟨1⟩ 0 ⟨300⟩)⟩]

/-- After that both overflow: a deposit of one unit, and a trade of all of them. -/
example :
    (((Ledger.fresh generous 8).run abundance).submit
          ⟨.ofSeed 1, .act (.ofSeed 1) (.deposit ⟨1⟩)⟩).2 = .error .overflow ∧
      (((Ledger.fresh generous 8).run abundance).submit
          ⟨.ofSeed 2, .act (.ofSeed 1) (.trade ⟨18446744073709551615⟩ 1 ⟨300⟩)⟩).2 =
        .error .overflow :=
  ⟨rfl, rfl⟩

end Ledger

end DelegatedEscrow
