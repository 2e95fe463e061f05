/-
DelegatedEscrow/Proofs/Pause.lean

A pause freezes an escrow until it is ended by an unpause that has cooled down.
Of all instructions a paused escrow lets through three, all of them the owner's:
taking funds out, the unpause, and closing.  None of these touches the slots, the
nonce, the lifetime or what was paid in and spent (`Account.Frozen`), and all but
the unpause need empty slots; with a delegate in a slot the record stands still.

The cooldown is counted from the clock reading at the last pause, which is the one
on record, to the reading at the unpause, in ordinary integers.
-/
import DelegatedEscrow.Proofs.History
import DelegatedEscrow.Proofs.Settlement
import DelegatedEscrow.Proofs.Timers

namespace DelegatedEscrow

namespace Account

/-- What a pause keeps of a record: funds may be taken out, and nothing else happens
but that the pause ends. -/
structure Frozen (a b : Account) : Prop where
  slot : ∀ k, b.slot k = a.slot k
  nonce : b.nonce = a.nonce
  lifetime : b.lifetime = a.lifetime
  deposited : b.totals.deposited = a.totals.deposited
  fees : b.totals.fees = a.totals.fees
  traded : b.totals.traded = a.totals.traded
  balance_le : b.balance ≤ a.balance

namespace Frozen

variable {a b c : Account}

theorem refl (a : Account) : a.Frozen a :=
  ⟨fun _ => rfl, rfl, rfl, rfl, rfl, rfl, Nat.le_refl _⟩

theorem trans (h : a.Frozen b) (h' : b.Frozen c) : a.Frozen c where
  slot k := (h'.slot k).trans (h.slot k)
  nonce := h'.nonce.trans h.nonce
  lifetime := h'.lifetime.trans h.lifetime
  deposited := h'.deposited.trans h.deposited
  fees := h'.fees.trans h.fees
  traded := h'.traded.trans h.traded
  balance_le := Nat.le_trans h'.balance_le h.balance_le

end Frozen

variable {s : Setting} {signer : Identity} {a : Account} {action : Action} {t : Transition}

/-- One action on a paused escrow. -/
theorem frozen_stage (paused : a.status = .paused) (h : action.stage s signer a = .ok t) :
    a.Frozen t.account := by
  have passes := (Action.stage_control h).paused paused
  cases action with
  | emergencyWithdraw amount =>
    obtain ⟨-, -, taken⟩ := emergencyWithdraw_eq_ok_iff.1 h
    obtain ⟨-, -, balance, hb, withdrawn, -, rfl⟩ := takeBack_eq_ok_iff.1 taken
    have less : balance ≤ a.balance := by
      rw [Amount.le_iff_toNat_le]
      omega
    exact ⟨slot_congr rfl rfl, rfl, rfl, rfl, rfl, rfl, less⟩
  | unpause =>
    obtain ⟨-, -, -, rfl⟩ := unpause_eq_ok_iff.1 h
    exact ⟨slot_congr rfl rfl, rfl, rfl, rfl, rfl, rfl, Nat.le_refl _⟩
  | close =>
    obtain ⟨-, -, -, withdrawn, -, rfl⟩ := close_eq_ok_iff.1 h
    exact ⟨slot_congr rfl rfl, rfl, rfl, rfl, rfl, rfl, Nat.zero_le _⟩
  | _ => exact passes.elim

/-- With a delegate in a slot, only the unpause gets through. -/
theorem unpause_of_delegated (paused : a.status = .paused) (delegated : a.Delegated)
    (h : action.stage s signer a = .ok t) : action = .unpause := by
  have control := Action.stage_control h
  have passes := control.paused paused
  cases action with
  | unpause => rfl
  | emergencyWithdraw amount => exact absurd delegated (control.undelegated trivial)
  | close => exact absurd delegated (control.undelegated trivial)
  | _ => exact passes.elim

end Account

namespace Ledger

variable {l l' : Ledger} {ms : List Moment} {limits : Limits} {P : Account → Prop}
variable {owner : Identity} {a : Account}

/-! ### Along a path -/

/-- At a moment, the escrow of an owner is paused. -/
def Moment.Paused (m : Moment) (owner : Identity) : Prop :=
  ∃ b, m.before.escrow? owner = some b ∧ b.status = .paused

theorem Path.frozen (inv : Account.Invariant limits P) (p : Path l ms l')
    (h : l.Records limits P) (found : l.escrow? owner = some a)
    (paused : ∀ m ∈ ms, m.Paused owner) :
    ∃ b, l'.escrow? owner = some b ∧ a.Frozen b := by
  induction p generalizing a with
  | nil => exact ⟨a, found, .refl a⟩
  | @cons l l' s ms single _ ih =>
    obtain ⟨b, before, is⟩ := paused ⟨l, s⟩ List.mem_cons_self
    obtain rfl : a = b := Option.some.inj (found.symm.trans before)
    have later : ∀ m ∈ ms, m.Paused owner := fun m hm => paused m (List.mem_cons_of_mem _ hm)
    have here : RecordStep ⟨l, s⟩ owner := Records.recordStep h single owner
    cases here with
    | kept same _ => exact ih (h.step inv single) (same.trans found) later
    | opened _ _ _ _ _ absent _ _ => cases found.symm.trans absent
    | acted _ _ b t _ before staged written =>
      obtain rfl : a = b := Option.some.inj (found.symm.trans before)
      obtain ⟨c, last, frozen⟩ := ih (h.step inv single) written later
      exact ⟨c, last, (Account.frozen_stage is staged).trans frozen⟩

theorem Path.still (inv : Account.Invariant limits P) (p : Path l ms l')
    (h : l.Records limits P) (found : l.escrow? owner = some a) (paused : a.status = .paused)
    (delegated : a.Delegated) (none : ∀ m ∈ ms, ¬ m.Performs owner .unpause) :
    l'.escrow? owner = some a := by
  induction p with
  | nil => exact found
  | @cons l l' s ms single _ ih =>
    have later : ∀ m ∈ ms, ¬ m.Performs owner .unpause :=
      fun m hm => none m (List.mem_cons_of_mem _ hm)
    have here : RecordStep ⟨l, s⟩ owner := Records.recordStep h single owner
    cases here with
    | kept same _ => exact ih (h.step inv single) (same.trans found) later
    | opened _ _ _ _ _ absent _ _ => cases found.symm.trans absent
    | acted signer action b t accepted before staged _ =>
      -- It would have been the unpause, which does not take place here.
      obtain rfl : a = b := Option.some.inj (found.symm.trans before)
      obtain rfl := Account.unpause_of_delegated paused delegated staged
      exact absurd ⟨signer, accepted⟩ (none ⟨l, s⟩ List.mem_cons_self)

/-! ### What gets through -/

/-- An instruction about a paused escrow takes effect only if the owner has signed it
and it is one of the three. -/
theorem Records.passes_pause (h : l.Records limits P) (found : l.escrow? owner = some a)
    (paused : a.status = .paused) {i : Signed} {r : Receipt}
    (accepted : (l.submit i).2 = .ok r) (target : i.target = owner) :
    i.signer = owner ∧ ∃ action, i.instruction = .act owner action ∧ action.PassesPause := by
  obtain ⟨t, staged⟩ := stage_of_submit_ok accepted
  obtain ⟨signer, ⟨mint, ceiling, caps⟩ | ⟨someone, action⟩⟩ := i
  · obtain ⟨absent, -⟩ := stage_create_eq_ok_iff.1 staged
    obtain rfl : signer = owner := target
    cases found.symm.trans absent
  · obtain rfl : someone = owner := target
    obtain ⟨b, before, acted⟩ := stage_act_eq_ok_iff.1 staged
    obtain rfl : a = b := Option.some.inj (found.symm.trans before)
    have control := Action.stage_control acted
    have passes := control.paused paused
    have signed := control.signed
    rw [Action.role_of_passesPause passes] at signed
    exact ⟨signed.trans (h.filed found), action, rfl, passes⟩

/-- The unpause needs the cooldown to be over, and nothing else. -/
theorem Records.unpause_accepted_iff (h : l.Records limits P) (positive : 0 ≤ limits.cooldown.toInt)
    (found : l.escrow? owner = some a) (paused : a.status = .paused) {began : Timestamp}
    (since : a.pausedAt = some began) :
    (∃ r, (l.submit ⟨owner, .act owner .unpause⟩).2 = .ok r) ↔
      limits.cooldown.toInt ≤ l.now.toInt - began.toInt := by
  have cooled : a.cooldownRemaining l.now l.limits.cooldown ≤ 0 ↔
      limits.cooldown.toInt ≤ l.now.toInt - began.toInt := by
    rw [h.limits_eq]
    exact Account.cooled_iff positive since
  rw [← cooled]
  constructor
  · rintro ⟨r, accepted⟩
    obtain ⟨t, staged⟩ := stage_of_submit_ok accepted
    obtain ⟨b, before, acted⟩ := stage_act_eq_ok_iff.1 staged
    obtain rfl : a = b := Option.some.inj (found.symm.trans before)
    exact (Account.unpause_eq_ok_iff.1 acted).2.2.1
  · intro elapsed
    let t : Transition := .silent { a with status := .active } .unpaused
    have acted : a.unpause l.setting owner = .ok t :=
      Account.unpause_eq_ok_iff.2 ⟨(h.filed found).symm, paused, elapsed, rfl⟩
    have staged : l.stage ⟨owner, .act owner .unpause⟩ = .ok t :=
      stage_act_eq_ok_iff.2 ⟨a, found, acted⟩
    exact ⟨_, congrArg Prod.snd (submit_of_settled staged (Transition.settle_of_none rfl _))⟩

/-- **A pause freezes an escrow until an unpause that has cooled down.**  The moment on
record is the clock reading at the latest pause, which has not been ended since.
Only the owner gets anything through.  As long as the escrow stays paused, no
delegate, nonce, lifetime or paid total changes and the balance does not grow; with
a delegate in a slot, nothing changes at all before an unpause. -/
theorem pause_freezes (limits : Limits) (retention : Nat) (start : Ledger)
    (started : Ledger.start limits retention = .ok start) (steps : List Step)
    (owner : Identity) (a : Account) (found : (start.run steps).escrow? owner = some a)
    (paused : a.status = .paused) :
    let past := start.trace steps
    let l := start.run steps
    ∃ began, a.pausedAt = some began ∧
      Since (fun m => m.Pauses owner began)
        (fun m => ¬ m.Performs owner .pause ∧ ¬ m.Performs owner .unpause) past ∧
      (∀ i r, (l.submit i).2 = .ok r → i.target = owner →
        i.signer = owner ∧ ∃ action, i.instruction = .act owner action ∧ action.PassesPause) ∧
      (∀ now, (∃ r, ((l.setTime now).submit ⟨owner, .act owner .unpause⟩).2 = .ok r) ↔
        limits.cooldown.toInt ≤ now.toInt - began.toInt) ∧
      ∀ more,
        ((∀ m ∈ l.trace more, m.Paused owner) →
          ∃ b, (l.run more).escrow? owner = some b ∧ a.Frozen b) ∧
        (a.Delegated → (∀ m ∈ l.trace more, ¬ m.Performs owner .unpause) →
          (l.run more).escrow? owner = some a) := by
  intro past l
  obtain ⟨-, cooldown⟩ := spans_of_start started
  obtain ⟨-, rfl⟩ := start_eq_ok_iff.1 started
  have inv := Account.invariant_true limits
  have path : Path (Ledger.fresh limits retention) past l := path_trace _ steps
  obtain ⟨records, recalls⟩ := path.remembers inv
  have remembers : Remembers past owner a := (recalls owner).2 a found
  obtain ⟨began, onRecord, since⟩ := remembers.paused paused
  refine ⟨began, onRecord, since, fun i r => records.passes_pause found paused, fun now => ?_,
    fun more => ⟨fun still => ?_, fun delegated none => ?_⟩⟩
  · -- Moving the clock leaves the records alone.
    have moved : (l.setTime now).Records limits fun _ => True :=
      records.step inv (s := .setTime now) trivial
    exact moved.unpause_accepted_iff cooldown found paused onRecord
  · exact (path_trace l more).frozen inv records found still
  · exact (path_trace l more).still inv records found paused delegated none

/-- A run that ends in a pause at 1000, with a delegate in a slot and the clock set
back afterwards. -/
def alarm : List Step :=
  [.issue (.wallet (.ofSeed 1)) .usdc ⟨100⟩,
    .submit ⟨.ofSeed 1, .create .usdc 0 .unlimited⟩,
    .submit ⟨.ofSeed 1, .act (.ofSeed 1) (.deposit ⟨60⟩)⟩,
    .submit ⟨.ofSeed 1, .act (.ofSeed 1) (.delegate .trading (.ofSeed 200))⟩,
    .setTime ⟨1000⟩,
    .submit ⟨.ofSeed 1, .act (.ofSeed 1) .pause⟩,
    .setTime ⟨-7⟩]

/-- The pause can be ended at 1300 and not a second before. -/
theorem alarm_cools_down :
    let l := (Ledger.fresh .standard 8).run alarm
    ∃ a, l.escrow? (.ofSeed 1) = some a ∧ a.status = .paused ∧
      (∃ r, ((l.setTime ⟨1300⟩).submit ⟨.ofSeed 1, .act (.ofSeed 1) .unpause⟩).2 = .ok r) ∧
      ¬ ∃ r, ((l.setTime ⟨1299⟩).submit ⟨.ofSeed 1, .act (.ofSeed 1) .unpause⟩).2 = .ok r := by
  intro l
  have there : (l.escrow? (.ofSeed 1)).isSome := by decide +kernel
  have status : (l.escrow? (.ofSeed 1)).map Account.status = some .paused := by decide +kernel
  have moment : (l.escrow? (.ofSeed 1)).bind Account.pausedAt = some ⟨1000⟩ := by decide +kernel
  obtain ⟨a, found⟩ := Option.isSome_iff_exists.1 there
  rw [found] at status moment
  have paused : a.status = .paused := Option.some.inj status
  obtain ⟨began, onRecord, -, -, accepted, -⟩ :=
    pause_freezes .standard 8 _ (start_standard 8) alarm (.ofSeed 1) a found paused
  obtain rfl : began = ⟨1000⟩ := Option.some.inj (onRecord.symm.trans moment)
  refine ⟨a, found, paused, (accepted _).2 (by decide), fun early => ?_⟩
  exact absurd ((accepted _).1 early) (by decide)

end Ledger

end DelegatedEscrow
