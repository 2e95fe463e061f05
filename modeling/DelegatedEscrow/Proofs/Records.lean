/-
DelegatedEscrow/Proofs/Records.lean

The records of a ledger, as time goes by.  At any moment the record of an escrow
stays as it is, unless an instruction about this very escrow takes effect
(`Records.recordStep`); then it is opened, or replaced by what one action makes
of it.  All that is said about the life of a record is an induction on the path
of a run with these three cases.

A property of records is *invariant* under some limits if new escrows have it
and no action loses it (`Account.Invariant`).  It is proved for the rules alone,
and `Records.run` carries it to every moment of every run.  That every record is
filed under its owner comes along, since it is what makes an instruction write
to the escrow that it names (`Records.target`).
-/
import DelegatedEscrow.Proofs.Trace

namespace DelegatedEscrow

/-! ### Invariants of records -/

/-- Instructions bring about only records with `P`: every new escrow has it, and
no action loses it. -/
structure Account.Invariant (limits : Limits) (P : Account → Prop) : Prop where
  opened : ∀ {now owner mint ceiling caps t},
    Setting.create ⟨limits, now⟩ owner mint ceiling caps = .ok t → P t.account
  acted : ∀ {now signer a action t},
    P a → Action.stage ⟨limits, now⟩ signer a action = .ok t → P t.account

theorem Account.Invariant.and {limits : Limits} {P Q : Account → Prop}
    (one : Account.Invariant limits P) (other : Account.Invariant limits Q) :
    Account.Invariant limits fun a => P a ∧ Q a where
  opened created := ⟨one.opened created, other.opened created⟩
  acted held acted := ⟨one.acted held.1 acted, other.acted held.2 acted⟩

/-- Where nothing is asked of the records, what remains is that they are filed. -/
theorem Account.invariant_true (limits : Limits) : Account.Invariant limits fun _ => True :=
  ⟨fun _ => trivial, fun _ _ => trivial⟩

namespace Ledger

/-- Under the limits given, every record is filed under its owner and has `P`. -/
structure Records (limits : Limits) (P : Account → Prop) (l : Ledger) : Prop where
  limits_eq : l.limits = limits
  filed : ∀ {owner a}, l.escrow? owner = some a → a.owner = owner
  each : ∀ {owner a}, l.escrow? owner = some a → P a

variable {limits : Limits} {P : Account → Prop} {l : Ledger} {m : Moment} {s : Step}
variable {i : Signed} {t : Transition} {c : Custody} {r : Receipt} {owner : Identity}

namespace Records

theorem fresh (limits : Limits) (P : Account → Prop) (retention : Nat) :
    (Ledger.fresh limits retention).Records limits P where
  limits_eq := rfl
  filed h := by simp [escrow?, Ledger.fresh] at h
  each h := by simp [escrow?, Ledger.fresh] at h

/-- A record is staged for the escrow that the instruction names. -/
theorem target (h : l.Records limits P) (staged : l.stage i = .ok t) :
    t.account.owner = i.target := by
  obtain ⟨signer, ⟨mint, ceiling, caps⟩ | ⟨owner, action⟩⟩ := i
  · obtain ⟨-, created⟩ := stage_create_eq_ok_iff.1 staged
    exact (Setting.create_effect created).1
  · obtain ⟨a, found, acted⟩ := stage_act_eq_ok_iff.1 staged
    exact (Action.stage_effect acted).terms.owner.trans (h.filed found)

theorem stage (h : l.Records limits P) (inv : Account.Invariant limits P)
    (staged : l.stage i = .ok t) : P t.account := by
  obtain ⟨rfl, -, each⟩ := h
  obtain ⟨signer, ⟨mint, ceiling, caps⟩ | ⟨owner, action⟩⟩ := i
  · obtain ⟨-, created⟩ := stage_create_eq_ok_iff.1 staged
    exact inv.opened created
  · obtain ⟨a, found, acted⟩ := stage_act_eq_ok_iff.1 staged
    exact inv.acted (each found) acted

end Records

/-! ### What a moment does to a record -/

/-- What can happen at a moment to the record of an escrow: nothing, unless an
instruction about this very escrow takes effect, which opens it or acts on it. -/
inductive RecordStep (m : Moment) (owner : Identity) : Prop
  | kept (same : m.after.escrow? owner = m.before.escrow? owner)
      (others : ∀ i, m.accepted? = some i → i.target ≠ owner)
  | opened (mint : Mint) (ceiling : Amount) (caps : LifetimeCaps) (t : Transition)
      (accepted : m.accepted? = some ⟨owner, .create mint ceiling caps⟩)
      (absent : m.before.escrow? owner = none)
      (created : m.before.setting.create owner mint ceiling caps = .ok t)
      (written : m.after.escrow? owner = some t.account)
  | acted (signer : Identity) (action : Action) (a : Account) (t : Transition)
      (accepted : m.accepted? = some ⟨signer, .act owner action⟩)
      (found : m.before.escrow? owner = some a)
      (staged : action.stage m.before.setting signer a = .ok t)
      (written : m.after.escrow? owner = some t.account)

/-- The case of an instruction that takes effect. -/
theorem RecordStep.of_written (h : m.before.Records limits P)
    (accepted : m.accepted? = some i) (staged : m.before.stage i = .ok t)
    (after : m.after = m.before.written c t) (owner : Identity) : RecordStep m owner := by
  have owns := h.target staged
  by_cases here : i.target = owner
  · have written : m.after.escrow? owner = some t.account := by
      rw [after, escrow?_written, if_pos (owns.trans here)]
    obtain ⟨signer, ⟨mint, ceiling, caps⟩ | ⟨target, action⟩⟩ := i
    · obtain rfl : signer = owner := here
      obtain ⟨absent, created⟩ := stage_create_eq_ok_iff.1 staged
      exact .opened mint ceiling caps t accepted absent created written
    · obtain rfl : target = owner := here
      obtain ⟨a, found, acted⟩ := stage_act_eq_ok_iff.1 staged
      exact .acted signer action a t accepted found acted written
  · -- The record is somebody else's.
    have elsewhere : t.account.owner ≠ owner := by
      intro same
      exact here (owns.symm.trans same)
    have same : m.after.escrow? owner = m.before.escrow? owner := by
      rw [after, escrow?_written, if_neg elsewhere]
    refine .kept same fun j hj => ?_
    obtain rfl : i = j := Option.some.inj (accepted.symm.trans hj)
    exact here

/-- **Locality.**  An instruction that takes effect writes the record of the escrow
that it is about, and no other. -/
theorem Records.recordStep (h : m.before.Records limits P) (single : m.step.Single)
    (owner : Identity) : RecordStep m owner := by
  cases Moment.outcome single with
  | nothing none kept =>
    refine .kept (by rw [escrow?, kept.1, escrow?]) fun i accepted => ?_
    cases none.symm.trans accepted
  | effect i t c _ accepted staged _ after => exact .of_written h accepted staged after owner

/-- What has taken effect on an escrow was staged for the record on file. -/
theorem Records.staged_of_accepted {signer : Identity} {action : Action}
    (h : m.before.Records limits P) (single : m.step.Single)
    (accepted : m.accepted? = some ⟨signer, .act owner action⟩) :
    ∃ a t, m.before.escrow? owner = some a ∧
      action.stage m.before.setting signer a = .ok t := by
  cases h.recordStep single owner with
  | kept _ others => exact absurd rfl (others _ accepted)
  | opened _ _ _ _ created _ _ _ =>
    rw [accepted] at created
    cases created
  | acted _ _ a t acted found staged _ =>
    rw [accepted] at acted
    cases acted
    exact ⟨a, t, found, staged⟩

/-! ### Along a run -/

namespace Records

theorem step (h : l.Records limits P) (inv : Account.Invariant limits P) (single : s.Single) :
    (l.step s).Records limits P := by
  have recordStep : ∀ owner, RecordStep ⟨l, s⟩ owner := Records.recordStep h single
  obtain ⟨rfl, filed, each⟩ := h
  refine ⟨limits_step single, fun {owner a} found => ?_, fun {owner a} found => ?_⟩
  · cases recordStep owner with
    | kept same _ => exact filed (same.symm.trans found)
    | opened _ _ _ t _ _ created written =>
      obtain rfl : a = t.account := Option.some.inj (found.symm.trans written)
      exact (Setting.create_effect created).1
    | acted _ _ b t _ before staged written =>
      obtain rfl : a = t.account := Option.some.inj (found.symm.trans written)
      exact (Action.stage_effect staged).terms.owner.trans (filed before)
  · cases recordStep owner with
    | kept same _ => exact each (same.symm.trans found)
    | opened _ _ _ t _ _ created written =>
      obtain rfl : a = t.account := Option.some.inj (found.symm.trans written)
      exact inv.opened created
    | acted _ _ b t _ before staged written =>
      obtain rfl : a = t.account := Option.some.inj (found.symm.trans written)
      exact inv.acted (each before) staged

/-- An invariant of records holds after every run, and was met by every moment
of it. -/
theorem run (inv : Account.Invariant limits P) (retention : Nat) (steps : List Step) :
    ((Ledger.fresh limits retention).run steps).Records limits P ∧
      ∀ m ∈ (Ledger.fresh limits retention).trace steps, m.before.Records limits P :=
  (path_trace _ steps).invariant (fun single h => h.step inv single)
    (Records.fresh limits P retention)

end Records

end Ledger

end DelegatedEscrow
