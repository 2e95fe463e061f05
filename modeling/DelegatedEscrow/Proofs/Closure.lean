/-
DelegatedEscrow/Proofs/Closure.lean

Closed is the end.  A close empties the record and leaves it in place as a
tombstone, which nothing moves any more: whatever is asked of a closed escrow, by
whomever and whenever, the first guard of its rule refuses it with the same fault,
before any other question is asked.

The one instruction that does not look at a status is the one that opens an escrow;
it is refused because there is a record at all.  Since no record is ever removed,
an owner opens one escrow and no second one.  The owners of the records are, at any
moment, exactly those who have opened one, each once (`Path.opened_once`).
-/
import DelegatedEscrow.Proofs.Control
import DelegatedEscrow.Proofs.History
import Mathlib.Data.List.Nodup

namespace DelegatedEscrow

/-! ### Rules on a closed escrow -/

namespace Account

/-- What a close leaves of a record. -/
structure Tombstone (a : Account) : Prop where
  closed : a.status = .closed
  balance : a.balance = 0
  platform : a.platform = .empty
  trading : a.trading = .empty

variable {a : Account} {s : Setting} {signer : Identity} {k : Authority} {amount : Amount}
variable {nonce : Nonce}

theorem requireOpen_of_closed (closed : a.status = .closed) : a.requireOpen = .error .closed :=
  require_eq_error_iff.2 ⟨not_not_intro closed, rfl⟩

/-- A rule that begins with the guard of an open escrow goes no further. -/
theorem open_bind_of_closed {α : Type} (closed : a.status = .closed)
    (rest : Unit → Except Fault α) : a.requireOpen >>= rest = .error .closed :=
  bind_eq_error_iff.2 (.inl (requireOpen_of_closed closed))

theorem requireSpendable_of_closed (closed : a.status = .closed) :
    a.requireSpendable s signer k amount nonce = .error .closed :=
  bind_eq_error_iff.2 (.inl (open_bind_of_closed closed _))

end Account

open Account in
theorem Action.stage_of_closed {a : Account} (closed : a.status = .closed) (s : Setting)
    (signer : Identity) (action : Action) : action.stage s signer a = .error .closed := by
  cases action with
  | collectFee amount nonce =>
    exact bind_eq_error_iff.2 (.inl (requireSpendable_of_closed closed))
  | trade amount nonce deadline =>
    exact bind_eq_error_iff.2 (.inl (requireSpendable_of_closed closed))
  | _ => exact open_bind_of_closed closed _

/-- The fault that meets an instruction about a closed escrow. -/
def Signed.closedFault (i : Signed) : Fault :=
  match i.instruction with
  | .create .. => .alreadyOpened i.signer
  | .act .. => .closed

/-- Who opens an escrow by an instruction. -/
def Signed.opens? (i : Signed) : Option Identity :=
  match i.instruction with
  | .create .. => some i.signer
  | .act .. => none

namespace Ledger

variable {l l' : Ledger} {ms past : List Moment} {m : Moment} {limits : Limits}
variable {P : Account → Prop} {owner signer : Identity} {a : Account} {i : Signed}

theorem submit_of_closed (found : l.escrow? i.target = some a) (closed : a.status = .closed) :
    l.submit i = (l, .error i.closedFault) := by
  have refused : l.stage i = .error i.closedFault := by
    -- There is a record, which is all that an opening asks; an action asks its status.
    obtain ⟨signer, ⟨mint, ceiling, caps⟩ | ⟨owner, action⟩⟩ := i
    · have taken : l.escrow? signer = some a := found
      exact bind_eq_error_iff.2 (.inl (require_eq_error_iff.2 ⟨by simp [taken], rfl⟩))
    · have there : l.escrow owner = .ok a := demand_eq_ok_iff.2 found
      exact bind_eq_error_iff.2 (.inr ⟨a, there, Action.stage_of_closed closed _ signer action⟩)
  rw [submit, refused]

/-! ### The tombstone -/

/-- A close leaves a tombstone. -/
theorem RecordStep.tombstone (h : RecordStep m owner)
    (closes : m.accepted? = some ⟨signer, .act owner .close⟩) :
    ∃ a, m.after.escrow? owner = some a ∧ a.Tombstone := by
  cases h with
  | kept _ others => exact absurd rfl (others _ closes)
  | opened _ _ _ _ opens _ _ _ => cases closes.symm.trans opens
  | acted _ _ a t accepted _ staged written =>
    cases closes.symm.trans accepted
    have status : t.account.status = .closed := (Action.stage_control staged).status
    obtain ⟨balance, free⟩ := (Action.stage_effect staged).closed status
    obtain ⟨platform, trading⟩ := Account.not_delegated_iff.1 free
    exact ⟨t.account, written, status, balance, platform, trading⟩

/-- A closed record stays what it is. -/
theorem RecordStep.kept_of_closed (h : RecordStep m owner)
    (found : m.before.escrow? owner = some a) (closed : a.status = .closed) :
    m.after.escrow? owner = some a := by
  cases h with
  | kept same _ => exact same.trans found
  | opened _ _ _ _ _ absent _ _ => cases found.symm.trans absent
  | acted _ _ b t _ before staged _ =>
    obtain rfl : a = b := Option.some.inj (found.symm.trans before)
    exact absurd closed (Action.stage_control staged).isOpen

theorem Path.kept_of_closed (inv : Account.Invariant limits P) (p : Path l ms l')
    (h : l.Records limits P) (found : l.escrow? owner = some a) (closed : a.status = .closed) :
    l'.escrow? owner = some a ∧ ∀ m ∈ ms, m.before.escrow? owner = some a := by
  have invariant := p.invariant (P := fun l => l.Records limits P ∧ l.escrow? owner = some a) ?_
    ⟨h, found⟩
  · exact ⟨invariant.1.2, fun m hm => (invariant.2 m hm).2⟩
  · rintro l s single ⟨records, there⟩
    have here : RecordStep ⟨l, s⟩ owner := Records.recordStep records single owner
    exact ⟨records.step inv single, here.kept_of_closed there closed⟩

/-! ### Who has opened an escrow -/

/-- Who opens an escrow at a moment. -/
def Moment.opens? (m : Moment) : Option Identity := m.accepted?.bind Signed.opens?

/-- Those who open an escrow, in order. -/
def openers (ms : List Moment) : List Identity := ms.filterMap Moment.opens?

theorem openers_concat : openers (past ++ [m]) = openers past ++ m.opens?.toList :=
  filterMap_concat _ _ _

theorem target_of_opens (opens : i.opens? = some owner) : i.target = owner := by
  obtain ⟨signer, ⟨mint, ceiling, caps⟩ | ⟨target, action⟩⟩ := i
  · exact Option.some.inj opens
  · cases opens

/-- An escrow is opened where there was none, and once it is there it stays. -/
theorem RecordStep.isSome_iff (h : RecordStep m owner) :
    (m.after.escrow? owner).isSome ↔
      (m.before.escrow? owner).isSome ∨ m.opens? = some owner := by
  cases h with
  | kept same others =>
    have none : m.opens? ≠ some owner := by
      intro opens
      obtain ⟨i, accepted, mine⟩ := Option.bind_eq_some_iff.1 opens
      exact others i accepted (target_of_opens mine)
    rw [same, or_iff_left none]
  | opened mint ceiling caps t accepted _ _ written =>
    rw [written, Moment.opens?, accepted]
    exact ⟨fun _ => .inr rfl, fun _ => rfl⟩
  | acted signer action a t _ found _ written =>
    rw [written, found]
    exact ⟨fun _ => .inl rfl, fun _ => rfl⟩

/-- Whoever opens an escrow did not have one. -/
theorem RecordStep.absent_of_opens (h : RecordStep m owner)
    (opens : m.opens? = some owner) : m.before.escrow? owner = none := by
  obtain ⟨i, accepted, mine⟩ := Option.bind_eq_some_iff.1 opens
  cases h with
  | kept _ others => exact absurd (target_of_opens mine) (others i accepted)
  | opened _ _ _ _ _ absent _ _ => exact absent
  | acted signer action a t acted _ _ _ =>
    obtain rfl : i = _ := Option.some.inj (accepted.symm.trans acted)
    cases mine

/-- The owners of the records are those who have opened one, each of them once. -/
theorem Path.opened_once {retention : Nat} (inv : Account.Invariant limits P)
    (p : Path (Ledger.fresh limits retention) past l) :
    (openers past).Nodup ∧ ∀ owner, owner ∈ openers past ↔ (l.escrow? owner).isSome := by
  refine (Path.grow_records
    (Q := fun past l => (openers past).Nodup ∧
      ∀ owner, owner ∈ openers past ↔ (l.escrow? owner).isSome) inv ?_ ?_ p).2
  · simp [openers, escrow?, Ledger.fresh]
  · rintro past l s single records ⟨distinct, opened⟩
    have recordStep : ∀ owner, RecordStep ⟨l, s⟩ owner := Records.recordStep records single
    constructor
    · rw [openers_concat]
      refine distinct.append (Option.toList_nodup _) fun owner before opens => ?_
      -- Nobody who has a record opens another one.
      rw [Option.mem_toList] at opens
      have absent := (recordStep owner).absent_of_opens opens
      rw [opened, absent] at before
      cases before
    · intro owner
      rw [openers_concat, List.mem_append, opened, Option.mem_toList]
      exact (recordStep owner).isSome_iff.symm

/-- **Closed is final.**  Once an escrow is closed, its record is the tombstone that the
close has left, at every later moment.  Every instruction about it is refused and
changes nothing: with `closed` if it acts on the escrow, and with `alreadyOpened` if
it would open it again.

No record is ever removed, and so nobody ever opens two escrows. -/
theorem closed_for_good (limits : Limits) (retention : Nat) (steps : List Step) :
    let start := Ledger.fresh limits retention
    let past := start.trace steps
    let l := start.run steps
    (∀ earlier m later signer owner, past = earlier ++ m :: later →
      m.accepted? = some ⟨signer, .act owner .close⟩ →
        ∃ a, m.after.escrow? owner = some a ∧ a.Tombstone ∧
          (∀ n ∈ later, n.before.escrow? owner = some a ∧
            ∀ i, i.target = owner → n.before.submit i = (n.before, .error i.closedFault)) ∧
          l.escrow? owner = some a ∧
            ∀ i, i.target = owner → l.submit i = (l, .error i.closedFault)) ∧
      (∀ m ∈ past, ∀ owner, (m.before.escrow? owner).isSome → (m.after.escrow? owner).isSome) ∧
      (openers past).Nodup ∧ ∀ owner, owner ∈ openers past ↔ (l.escrow? owner).isSome := by
  intro start past l
  have inv := Account.invariant_true limits
  have path : Path start past l := path_trace start steps
  obtain ⟨-, each⟩ := Records.run inv retention steps
  have recordStep : ∀ m ∈ past, ∀ owner, RecordStep m owner := fun m hm =>
    (each m hm).recordStep (path.single_of_mem hm)
  refine ⟨fun earlier m later signer owner history closes => ?_, fun m hm owner there => ?_,
    path.opened_once inv⟩
  · have hm : m ∈ past := by rw [history]; simp
    obtain ⟨a, written, tombstone⟩ := (recordStep m hm owner).tombstone closes
    rw [history] at path
    obtain ⟨-, single, after⟩ := path.split
    have records : m.after.Records limits _ := (each m hm).step inv single
    obtain ⟨last, between⟩ := after.kept_of_closed inv records written tombstone.closed
    refine ⟨a, written, tombstone, fun n hn => ⟨between n hn, ?_⟩, last, ?_⟩
    · rintro i rfl
      exact submit_of_closed (between n hn) tombstone.closed
    · rintro i rfl
      exact submit_of_closed last tombstone.closed
  · exact (recordStep m hm owner).isSome_iff.2 (.inl there)

/-- A run in which an escrow is closed with 3 units left, and its owner then turns back
the clock and asks for it once more. -/
def farewell : List Step :=
  [.issue (.wallet (.ofSeed 1)) .usdc ⟨100⟩,
    .submit ⟨.ofSeed 1, .create .usdc 0 .unlimited⟩,
    .submit ⟨.ofSeed 1, .act (.ofSeed 1) (.deposit ⟨60⟩)⟩,
    .submit ⟨.ofSeed 1, .act (.ofSeed 1) (.withdraw ⟨57⟩)⟩,
    .submit ⟨.ofSeed 1, .act (.ofSeed 1) .close⟩,
    .setTime ⟨-7⟩,
    .submit ⟨.ofSeed 1, .act (.ofSeed 1) (.deposit ⟨60⟩)⟩,
    .submit ⟨.ofSeed 1, .create .usdc 0 .unlimited⟩]

/-- Neither the owner nor anybody else gets anything through afterwards. -/
theorem farewell_is_final :
    let start := Ledger.fresh .standard 8
    let l := start.run farewell
    (start.trace farewell).length = 8 ∧
      (∃ a, l.escrow? (.ofSeed 1) = some a ∧ a.Tombstone) ∧
      l.submit ⟨.ofSeed 1, .create .usdc 0 .unlimited⟩ =
        (l, .error (.alreadyOpened (.ofSeed 1))) ∧
      l.submit ⟨.ofSeed 9, .act (.ofSeed 1) (.collectFee ⟨0⟩ 7)⟩ = (l, .error .closed) := by
  intro start l
  let m : Moment := ⟨start.run (farewell.take 4), .submit ⟨.ofSeed 1, .act (.ofSeed 1) .close⟩⟩
  have closes : m.accepted? = some ⟨.ofSeed 1, .act (.ofSeed 1) .close⟩ := by decide +kernel
  have history := trace_append start (farewell.take 4) (farewell.drop 4)
  rw [List.take_append_drop] at history
  obtain ⟨final, -⟩ := closed_for_good .standard 8 farewell
  obtain ⟨a, -, tombstone, -, found, refused⟩ :=
    final _ m _ (.ofSeed 1) (.ofSeed 1) history closes
  exact ⟨by decide +kernel, ⟨a, found, tombstone⟩, refused _ rfl, refused _ rfl⟩

end Ledger

end DelegatedEscrow
