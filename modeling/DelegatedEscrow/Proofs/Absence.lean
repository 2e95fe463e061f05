/-
DelegatedEscrow/Proofs/Absence.lean

An owner who is away.  While nothing takes effect that the owner has signed, nobody
opens an escrow in the owner's name, and the only ones who can touch an escrow that is
there are the two who are in its slots when the owner leaves:

    balance then  =  balance now + all fees drawn by the one + all trades drawn by the other

Each draw advances the nonce and is within the cap on one call; the terms, the slots,
the status, the timers and what the owner has paid in and taken out stay.  The slots
stay in particular, so that those who may draw are the same all along; this is what
carries the induction (`Path.drained`).
-/
import DelegatedEscrow.Proofs.Delegation
import DelegatedEscrow.Proofs.Effects
import Mathlib.Algebra.GroupWithZero.Nat
import Mathlib.Algebra.Order.BigOperators.Group.List
import Mathlib.Algebra.Order.Group.Nat

namespace DelegatedEscrow

namespace Amount

variable {xs ys : List Amount} {cap : Amount}

/-- So many base units in all. -/
def total (xs : List Amount) : Nat := (xs.map toNat).sum

theorem total_append : total (xs ++ ys) = total xs + total ys := by
  simp [total]

theorem total_le (each : ∀ x ∈ xs, x ≤ cap) : total xs ≤ xs.length * cap.toNat := by
  have bound : ∀ n ∈ xs.map toNat, n ≤ cap.toNat := by
    intro n hn
    obtain ⟨x, hx, rfl⟩ := List.mem_map.1 hn
    exact each x hx
  simpa [total] using List.sum_le_card_nsmul _ _ bound

end Amount

/-! ### Draws -/

namespace Action

variable {action : Action} {k : Authority} {amount : Amount}

/-- How much an action draws under an authority. -/
def drawUnder? (action : Action) (k : Authority) : Option Amount :=
  action.draw?.bind fun (j, amount) => if j = k then some amount else none

theorem drawUnder?_eq_some_iff :
    action.drawUnder? k = some amount ↔ action.draw? = some (k, amount) := by
  simp only [drawUnder?, Option.bind_eq_some_iff, Option.ite_none_right_eq_some,
    Option.some.injEq, Prod.exists]
  constructor
  · rintro ⟨j, x, draws, rfl, rfl⟩
    exact draws
  · intro draws
    exact ⟨k, amount, draws, rfl, rfl⟩

theorem role_of_draw (draws : action.draw? = some (k, amount)) : action.role = .authority k := by
  cases action with
  | collectFee fee nonce => cases draws; rfl
  | trade traded nonce deadline => cases draws; rfl
  | _ => cases draws

end Action

/-- How much a signed instruction draws from the escrow of an owner under an authority,
if `d` has signed it. -/
def Signed.draws? (i : Signed) (owner : Identity) (k : Authority) (d : Option Identity) :
    Option Amount :=
  match i.instruction with
  | .create .. => none
  | .act escrow action =>
    if escrow = owner ∧ some i.signer = d then action.drawUnder? k else none

theorem Signed.draws?_eq_some_iff {i : Signed} {owner : Identity} {k : Authority}
    {d : Option Identity} {amount : Amount} :
    i.draws? owner k d = some amount ↔
      ∃ action, i.instruction = .act owner action ∧ some i.signer = d ∧
        action.draw? = some (k, amount) := by
  obtain ⟨signer, ⟨mint, ceiling, caps⟩ | ⟨escrow, action⟩⟩ := i
  · simp [draws?]
  · simp only [draws?, Option.ite_none_right_eq_some, Action.drawUnder?_eq_some_iff,
      Instruction.act.injEq]
    constructor
    · rintro ⟨⟨rfl, rfl⟩, draws⟩
      exact ⟨action, ⟨rfl, rfl⟩, rfl, draws⟩
    · rintro ⟨_, ⟨rfl, rfl⟩, rfl, draws⟩
      exact ⟨⟨rfl, rfl⟩, draws⟩

namespace Account

/-- What delegates have made of a record by drawing amounts under their authorities. -/
structure Drained (a b : Account) (drawn : Authority → List Amount) : Prop where
  kept : b =
    { a with
      balance := b.balance
      nonce := b.nonce
      totals := { a.totals with fees := b.totals.fees, traded := b.totals.traded } }
  balance : b.balance.toNat + Amount.total (drawn .platform) + Amount.total (drawn .trading) =
    a.balance.toNat
  fees : b.totals.fees.toNat = a.totals.fees.toNat + Amount.total (drawn .platform)
  traded : b.totals.traded.toNat = a.totals.traded.toNat + Amount.total (drawn .trading)
  nonce : b.nonce.toNat =
    a.nonce.toNat + (drawn .platform).length + (drawn .trading).length

namespace Drained

variable {a b c : Account} {drawn later : Authority → List Amount}

theorem refl (a : Account) : a.Drained a fun _ => [] :=
  ⟨rfl, rfl, rfl, rfl, rfl⟩

theorem slot (h : a.Drained b drawn) (k : Authority) : b.slot k = a.slot k := by
  rw [h.kept]
  cases k <;> rfl

theorem trans (h : a.Drained b drawn) (h' : b.Drained c later) :
    a.Drained c fun k => drawn k ++ later k := by
  obtain ⟨kept, balance, fees, traded, nonce⟩ := h
  obtain ⟨kept', balance', fees', traded', nonce'⟩ := h'
  refine ⟨?_, ?_, ?_, ?_, ?_⟩
  · -- Both leave the same fields, and the later values of the others count.
    rw [kept', kept]
  all_goals
    simp only [Amount.total_append, List.length_append]
    omega

/-- Where nothing is drawn, nothing changes. -/
theorem eq_of_nil (h : a.Drained b drawn) (none : ∀ k, drawn k = []) : b = a := by
  obtain ⟨kept, balance, fees, traded, nonce⟩ := h
  rw [none, none] at balance nonce
  rw [none] at fees traded
  rw [kept, Amount.toNat_inj.1 balance, Amount.toNat_inj.1 fees, Amount.toNat_inj.1 traded,
    UInt64.toNat_inj.1 nonce]

end Drained

end Account

/-- What an action of a delegate makes of the record. -/
theorem Action.stage_drained {s : Setting} {signer : Identity} {a : Account} {action : Action}
    {t : Transition} (delegated : action.role ≠ .owner) (h : action.stage s signer a = .ok t) :
    a.Drained t.account fun k => (action.drawUnder? k).toList := by
  cases action with
  | collectFee amount nonce =>
    obtain ⟨-, -, balance, left, fees, sum, spare, rfl⟩ := Account.collectFee_eq_ok_iff.1 h
    exact ⟨rfl, left, sum, rfl, Account.toNat_succ_nonce spare⟩
  | trade amount nonce deadline =>
    obtain ⟨-, -, -, traded, sum, -, balance, left, spare, rfl⟩ := Account.trade_eq_ok_iff.1 h
    exact ⟨rfl, left, rfl, sum, Account.toNat_succ_nonce spare⟩
  | _ => exact absurd rfl delegated

/-- A delegate draws under the authority that it holds, and so what an action draws is
drawn by whoever is in the slot. -/
theorem Account.HeldBy.draws?_eq {a : Account} {signer owner : Identity} {action : Action}
    (held : a.HeldBy signer action.role) (k : Authority) :
    Signed.draws? ⟨signer, .act owner action⟩ owner k (a.slot k).delegate? =
      action.drawUnder? k := by
  rcases e : action.drawUnder? k with - | amount
  · simp [Signed.draws?, e]
  · have draws := Action.drawUnder?_eq_some_iff.1 e
    rw [Action.role_of_draw draws] at held
    exact Signed.draws?_eq_some_iff.2 ⟨action, rfl, held.symm, draws⟩

namespace Ledger

variable {l l' : Ledger} {ms : List Moment} {m : Moment} {i : Signed} {limits : Limits}
variable {P : Account → Prop} {owner : Identity} {a : Account} {k : Authority}
variable {d : Option Identity}

/-- How much `d` draws from the escrow of an owner under an authority at a moment. -/
def Moment.drawn? (m : Moment) (owner : Identity) (k : Authority) (d : Option Identity) :
    Option Amount :=
  m.accepted?.bind fun i => i.draws? owner k d

/-- The amounts that `d` draws from the escrow of an owner under an authority, in order. -/
def drawn (ms : List Moment) (owner : Identity) (k : Authority) (d : Option Identity) :
    List Amount :=
  ms.filterMap fun m => m.drawn? owner k d

theorem drawn_cons :
    drawn (m :: ms) owner k d = (m.drawn? owner k d).toList ++ drawn ms owner k d :=
  filterMap_cons_toList _ _ _

theorem drawn?_of_accepted (accepted : m.accepted? = some i) :
    m.drawn? owner k d = i.draws? owner k d := by
  rw [Moment.drawn?, accepted, Option.bind_some]

theorem drawn?_of_others (others : ∀ i, m.accepted? = some i → i.target ≠ owner) :
    m.drawn? owner k d = none := by
  rw [Moment.drawn?, Option.bind_eq_none_iff]
  intro i accepted
  refine Option.eq_none_iff_forall_ne_some.2 fun amount draws => ?_
  obtain ⟨action, acts, -⟩ := Signed.draws?_eq_some_iff.1 draws
  exact others i accepted (by rw [Signed.target, acts])

/-! ### One step -/

/-- Nobody opens an escrow for somebody else. -/
theorem RecordStep.absent (h : RecordStep m owner)
    (away : ∀ i, m.accepted? = some i → i.signer ≠ owner)
    (absent : m.before.escrow? owner = none) : m.after.escrow? owner = none := by
  cases h with
  | kept same _ => exact same.trans absent
  | opened _ _ _ _ opens _ _ _ => exact absurd rfl (away _ opens)
  | acted _ _ _ _ _ found _ _ => cases absent.symm.trans found

theorem RecordStep.drained (h : RecordStep m owner) (filed : a.owner = owner)
    (away : ∀ i, m.accepted? = some i → i.signer ≠ owner)
    (found : m.before.escrow? owner = some a) :
    ∃ b, m.after.escrow? owner = some b ∧
      a.Drained b fun k => (m.drawn? owner k (a.slot k).delegate?).toList := by
  cases h with
  | kept same others =>
    refine ⟨a, same.trans found, ?_⟩
    simp only [drawn?_of_others others, Option.toList_none]
    exact .refl a
  | opened _ _ _ _ _ absent _ _ => cases found.symm.trans absent
  | acted signer action a' t accepted found' staged written =>
    obtain rfl : a = a' := Option.some.inj (found.symm.trans found')
    have held := (Action.stage_control staged).signed
    -- An action that is up to the owner would have been signed by the owner.
    have delegated : action.role ≠ .owner := by
      intro role
      rw [role] at held
      exact away _ accepted (held.trans filed)
    refine ⟨t.account, written, ?_⟩
    simp only [drawn?_of_accepted accepted, held.draws?_eq]
    exact Action.stage_drained delegated staged

/-! ### Along a path -/

theorem Path.absent (inv : Account.Invariant limits P) (p : Path l ms l')
    (h : l.Records limits P) (away : ∀ i ∈ accepted ms, i.signer ≠ owner)
    (absent : l.escrow? owner = none) : l'.escrow? owner = none := by
  induction p with
  | nil => exact absent
  | @cons l l' s ms single _ ih =>
    have here : RecordStep ⟨l, s⟩ owner := Records.recordStep h single owner
    obtain ⟨now, later⟩ := forall_accepted_cons.1 away
    exact ih (h.step inv single) later (here.absent now absent)

/-- What delegates draw while the owner is away is all that happens to the record. -/
theorem Path.drained (inv : Account.Invariant limits P) (p : Path l ms l')
    (h : l.Records limits P) (away : ∀ i ∈ accepted ms, i.signer ≠ owner)
    (found : l.escrow? owner = some a) :
    ∃ b, l'.escrow? owner = some b ∧
      a.Drained b fun k => drawn ms owner k (a.slot k).delegate? := by
  induction p generalizing a with
  | nil => exact ⟨a, found, .refl a⟩
  | @cons l l' s ms single _ ih =>
    have here : RecordStep ⟨l, s⟩ owner := Records.recordStep h single owner
    obtain ⟨now, later⟩ := forall_accepted_cons.1 away
    obtain ⟨b, between, first⟩ := here.drained (h.filed found) now found
    obtain ⟨c, last, rest⟩ := ih (h.step inv single) later between
    refine ⟨c, last, ?_⟩
    -- The slots are still the same, so the same two may draw.
    simp only [first.slot] at rest
    simp only [drawn_cons]
    exact first.trans rest

/-- Every single draw is within the cap on one call. -/
theorem Path.drawn_le (inv : Account.Invariant limits P) (p : Path l ms l')
    (h : l.Records limits P) : ∀ x ∈ drawn ms owner k d, x ≤ limits.callCap k := by
  intro x hx
  obtain ⟨m, hm, drawn⟩ := List.mem_filterMap.1 hx
  obtain ⟨⟨signer, instruction⟩, accepted, draws⟩ := Option.bind_eq_some_iff.1 drawn
  obtain ⟨action, rfl, -, draw⟩ := Signed.draws?_eq_some_iff.1 draws
  obtain ⟨-, each⟩ := p.invariant (fun single records => records.step inv single) h
  obtain ⟨b, t, -, staged⟩ := (each m hm).staged_of_accepted (p.single_of_mem hm) accepted
  have withinCap := (Action.stage_draw draw staged).1.withinCap
  rwa [setting, (each m hm).limits_eq] at withinCap

/-- **Only the owner and the delegates.**  Take any stretch of a run in which nothing that
an owner has signed takes effect.  If the owner has no escrow, none appears.  If there is
one, all that can happen to it is that the two who were in its slots at the beginning
draw on it: the balance falls by exactly what they have drawn, which is at most the cap
on one call for each draw, the nonce counts the draws, and no other part of the record
changes.  Without such a draw the record is the same. -/
theorem owner_and_delegates_only (limits : Limits) (retention : Nat) (steps : List Step)
    (l : Ledger) (reached : (Ledger.fresh limits retention).run steps = l) (more : List Step)
    (owner : Identity) (away : ∀ i ∈ accepted (l.trace more), i.signer ≠ owner) :
    (l.escrow? owner = none → (l.run more).escrow? owner = none) ∧
      ∀ a, l.escrow? owner = some a →
        let fees := drawn (l.trace more) owner .platform a.platform.delegate?
        let trades := drawn (l.trace more) owner .trading a.trading.delegate?
        (∃ b, (l.run more).escrow? owner = some b ∧
          b =
            { a with
              balance := b.balance
              nonce := b.nonce
              totals := { a.totals with fees := b.totals.fees, traded := b.totals.traded } } ∧
          b.balance.toNat + Amount.total fees + Amount.total trades = a.balance.toNat ∧
          b.totals.fees.toNat = a.totals.fees.toNat + Amount.total fees ∧
          b.totals.traded.toNat = a.totals.traded.toNat + Amount.total trades ∧
          b.nonce.toNat = a.nonce.toNat + fees.length + trades.length) ∧
        Amount.total fees + Amount.total trades ≤
          fees.length * limits.feeCap.toNat + trades.length * limits.tradeCap.toNat ∧
        ((∀ i ∈ accepted (l.trace more), i.target = owner →
            ∀ k, (a.slot k).delegate? ≠ some i.signer) →
          (l.run more).escrow? owner = some a) := by
  have inv := Account.invariant_true limits
  have records : l.Records limits fun _ => True := reached ▸ (Records.run inv retention steps).1
  have path : Path l (l.trace more) (l.run more) := path_trace l more
  refine ⟨path.absent inv records away, fun a found => ?_⟩
  obtain ⟨b, last, drained⟩ := path.drained inv records away found
  refine ⟨⟨b, last, drained.kept, drained.balance, drained.fees, drained.traded, drained.nonce⟩,
    ?_, fun idle => ?_⟩
  · exact Nat.add_le_add (Amount.total_le (path.drawn_le inv records))
      (Amount.total_le (path.drawn_le inv records))
  · -- Whatever is drawn is drawn by somebody in a slot.
    have none : ∀ k, drawn (l.trace more) owner k (a.slot k).delegate? = [] := by
      intro k
      rw [drawn, List.filterMap_eq_nil_iff]
      intro m hm
      refine Option.eq_none_iff_forall_ne_some.2 fun amount draws => ?_
      obtain ⟨i, accepted, draw⟩ := Option.bind_eq_some_iff.1 draws
      obtain ⟨action, acts, signer, -⟩ := Signed.draws?_eq_some_iff.1 draw
      exact idle i (List.mem_filterMap.2 ⟨m, hm, accepted⟩) (by rw [Signed.target, acts]) k
        signer.symm
    rw [last, drained.eq_of_nil none]

/-- A run at whose end an escrow of 60 has two delegates.  One of them has an escrow of
its own. -/
def departure : List Step :=
  [.issue (.wallet (.ofSeed 1)) .usdc ⟨100⟩,
    .submit ⟨.ofSeed 1, .create .usdc 0 .unlimited⟩,
    .submit ⟨.ofSeed 1, .act (.ofSeed 1) (.deposit ⟨60⟩)⟩,
    .submit ⟨.ofSeed 1, .act (.ofSeed 1) (.delegate .platform (.ofSeed 100))⟩,
    .submit ⟨.ofSeed 1, .act (.ofSeed 1) (.delegate .trading (.ofSeed 200))⟩,
    .submit ⟨.ofSeed 200, .create .usdc 0 .unlimited⟩,
    .setTime ⟨300⟩]

/-- The record at its end. -/
def entrusted : Account where
  owner := .ofSeed 1
  mint := .usdc
  platform := .delegated (.ofSeed 100) ⟨0⟩
  trading := .delegated (.ofSeed 200) ⟨0⟩
  status := .active
  balance := ⟨60⟩
  ceiling := Limits.standard.defaultCeiling
  caps := .unlimited
  lifetime := none
  createdAt := ⟨0⟩
  pausedAt := none
  nonce := 0
  totals := ⟨⟨60⟩, 0, 0, 0⟩

/-- What happens then without the owner: one fee and one trade, a fee that is presented
twice, a trade by the wrong delegate, and a stranger who asks for a pause. -/
def errands : List Step :=
  [.submitAll [⟨.ofSeed 100, .act (.ofSeed 1) (.collectFee ⟨10⟩ 0)⟩,
      ⟨.ofSeed 100, .act (.ofSeed 1) (.collectFee ⟨10⟩ 0)⟩],
    .submit ⟨.ofSeed 200, .act (.ofSeed 200) (.deposit ⟨5⟩)⟩,
    .submit ⟨.ofSeed 100, .act (.ofSeed 1) (.trade ⟨20⟩ 1 ⟨300⟩)⟩,
    .submit ⟨.ofSeed 3, .act (.ofSeed 1) .pause⟩,
    .submit ⟨.ofSeed 200, .act (.ofSeed 1) (.trade ⟨20⟩ 1 ⟨300⟩)⟩]

/-- Of the 60 units 30 are left, two nonces are spent, and both delegates are still
there. -/
theorem errands_drain :
    let l := (Ledger.fresh .standard 8).run departure
    l.escrow? (.ofSeed 1) = some entrusted ∧
      (∀ i ∈ accepted (l.trace errands), i.signer ≠ .ofSeed 1) ∧
      ∃ b, (l.run errands).escrow? (.ofSeed 1) = some b ∧ b.balance.toNat = 30 ∧
        b.nonce.toNat = 2 ∧ b.platform = entrusted.platform ∧ b.trading = entrusted.trading := by
  intro l
  have found : l.escrow? (.ofSeed 1) = some entrusted := by decide +kernel
  have away : ∀ i ∈ accepted (l.trace errands), i.signer ≠ .ofSeed 1 := by decide +kernel
  have fees : drawn (l.trace errands) (.ofSeed 1) .platform entrusted.platform.delegate? =
      [⟨10⟩] := by
    decide +kernel
  have trades : drawn (l.trace errands) (.ofSeed 1) .trading entrusted.trading.delegate? =
      [⟨20⟩] := by
    decide +kernel
  obtain ⟨-, drained⟩ :=
    owner_and_delegates_only .standard 8 departure l rfl errands (.ofSeed 1) away
  obtain ⟨⟨b, last, kept, left, -, -, spent⟩, -⟩ := drained entrusted found
  rw [fees, trades] at left spent
  refine ⟨found, away, b, last, ?_, spent, by rw [kept], by rw [kept]⟩
  have whole : b.balance.toNat + 10 + 20 = 60 := left
  omega

end Ledger

end DelegatedEscrow
