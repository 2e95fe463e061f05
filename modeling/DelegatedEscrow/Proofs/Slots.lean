/-
DelegatedEscrow/Proofs/Slots.lean

Slots are assigned once at a time.  Between any two moments that follow each other a slot
stays as it is, or it changes hands in one of two ways (`SlotStep`):

    empty      →  delegated d now     the owner delegates under this authority
    delegated  →  empty               the owner revokes it

both on an active escrow.  There is no third arrow, so one delegate never takes the place
of another directly: whoever finds a different delegate in a slot than before, or the same
one with a different moment of arming, has missed a revocation and, after it, a delegation
that has armed the lock anew (`Path.reassigned`).
-/
import DelegatedEscrow.Proofs.History

namespace DelegatedEscrow

namespace Account

/-! ### Who may be in a slot -/

/-- Whoever is in a slot is somebody, and not the owner. -/
def Outsiders (a : Account) : Prop :=
  ∀ {k d start}, a.slot k = .delegated d start → d ≠ a.owner ∧ d ≠ .unset

/-- A new escrow has empty slots. -/
theorem slot_create {s : Setting} {owner : Identity} {mint : Mint} {ceiling : Amount}
    {caps : LifetimeCaps} {t : Transition} (h : s.create owner mint ceiling caps = .ok t)
    (k : Authority) : t.account.slot k = .empty := by
  obtain ⟨-, -, granted, -, rfl⟩ := Setting.create_eq_ok_iff.1 h
  cases k <;> rfl

theorem outsiders_stage {s : Setting} {signer : Identity} {a : Account} {action : Action}
    {t : Transition} (outsiders : a.Outsiders) (h : action.stage s signer a = .ok t) :
    t.account.Outsiders := by
  intro k d start taken
  have control := Action.stage_control h
  rw [(Action.stage_effect h).terms.owner]
  rw [control.slot] at taken
  rcases Action.slotAfter_eq_delegated taken with ⟨rfl, -⟩ | ⟨before, -⟩
  · obtain ⟨-, -, -, ⟨somebody, other⟩, -, -⟩ := delegate_eq_ok_iff.1 h
    exact ⟨other, somebody⟩
  · exact outsiders before

theorem outsiders_invariant (limits : Limits) : Invariant limits Outsiders where
  opened created := by
    intro k d start taken
    cases (slot_create created k).symm.trans taken
  acted outsiders acted := outsiders_stage outsiders acted

end Account

namespace Ledger

variable {l l' l'' : Ledger} {ms ns past : List Moment} {m : Moment} {limits : Limits}
variable {P : Account → Prop} {owner d e : Identity} {a b : Account} {k : Authority}
variable {start again : Timestamp}

/-! ### One step -/

/-- What can happen to a slot at a moment, from the record before to the record after. -/
inductive SlotStep (m : Moment) (owner : Identity) (k : Authority) (a b : Account) : Prop
  | kept (same : b.slot k = a.slot k)
  | filled (d : Identity) (arms : m.Arms owner k d m.before.now) (active : a.status = .active)
      (unexpired : ¬ a.Expired m.before.now) (free : a.slot k = .empty)
      (taken : b.slot k = .delegated d m.before.now)
  | emptied (d : Identity) (start : Timestamp)
      (revoked : m.accepted? = some ⟨owner, .act owner (.revoke k)⟩)
      (active : a.status = .active) (taken : a.slot k = .delegated d start)
      (free : b.slot k = .empty)

/-- The rules leave a slot alone but for delegations and revocations under its own
authority. -/
theorem SlotStep.of_staged {signer : Identity} {action : Action} {t : Transition}
    (filed : a.owner = owner) (accepted : m.accepted? = some ⟨signer, .act owner action⟩)
    (staged : action.stage m.before.setting signer a = .ok t) (k : Authority) :
    SlotStep m owner k a t.account := by
  have slot := (Action.stage_control staged).slot k
  cases action with
  | delegate j d =>
    by_cases here : j = k
    · subst here
      obtain ⟨owns, active, unexpired, -, free, -⟩ := Account.delegate_eq_ok_iff.1 staged
      rw [filed] at owns
      subst owns
      rw [Action.slotAfter, if_pos rfl] at slot
      exact .filled d ⟨accepted, rfl⟩ active unexpired free slot
    · rw [Action.slotAfter, if_neg here] at slot
      exact .kept slot
  | revoke j =>
    by_cases here : j = k
    · subst here
      obtain ⟨owns, active, d, taken, -⟩ := Account.revoke_eq_ok_iff.1 staged
      obtain ⟨start, before⟩ := Slot.eq_delegated_of_delegate? taken
      rw [filed] at owns
      subst owns
      rw [Action.slotAfter, if_pos rfl] at slot
      exact .emptied d start accepted active before slot
    · rw [Action.slotAfter, if_neg here] at slot
      exact .kept slot
  | _ => exact .kept slot

/-- Every record has a successor, and each of its slots takes one of the three ways. -/
theorem RecordStep.slotStep (h : RecordStep m owner) (filed : a.owner = owner)
    (found : m.before.escrow? owner = some a) :
    ∃ b, m.after.escrow? owner = some b ∧ ∀ k, SlotStep m owner k a b := by
  cases h with
  | kept same _ => exact ⟨a, same.trans found, fun _ => .kept rfl⟩
  | opened _ _ _ _ _ absent _ _ => cases found.symm.trans absent
  | acted signer action a' t accepted found' staged written =>
    obtain rfl : a = a' := Option.some.inj (found.symm.trans found')
    exact ⟨t.account, written, SlotStep.of_staged filed accepted staged⟩

theorem RecordStep.slot_of_opened (h : RecordStep m owner)
    (absent : m.before.escrow? owner = none) (found : m.after.escrow? owner = some b)
    (k : Authority) : b.slot k = .empty := by
  cases h with
  | kept same _ => cases found.symm.trans (same.trans absent)
  | opened _ _ _ t _ _ created written =>
    obtain rfl : b = t.account := Option.some.inj (found.symm.trans written)
    exact Account.slot_create created k
  | acted _ _ _ _ _ before _ _ => cases absent.symm.trans before

/-- What is done under one authority does nothing to the slot of the other. -/
theorem SlotStep.same_of_other {j : Authority} (h : SlotStep m owner k a b) (other : j ≠ k)
    (done : (∃ d, m.Performs owner (.delegate j d)) ∨ m.Performs owner (.revoke j)) :
    b.slot k = a.slot k := by
  cases h with
  | kept same => exact same
  | filled d arms _ _ _ _ =>
    rcases done with ⟨e, delegates⟩ | revokes
    · cases (performs_iff arms.1).1 delegates
      exact absurd rfl other
    · cases (performs_iff arms.1).1 revokes
  | emptied d start revoked _ _ _ =>
    rcases done with ⟨e, delegates⟩ | revokes
    · cases (performs_iff revoked).1 delegates
    · cases (performs_iff revoked).1 revokes
      exact absurd rfl other

/-! ### Along a path -/

/-- A path through two stretches has a ledger between them. -/
theorem Path.of_append (p : Path l (ms ++ ns) l'') :
    ∃ l', Path l ms l' ∧ Path l' ns l'' := by
  induction ms generalizing l with
  | nil => exact ⟨l, .nil, p⟩
  | cons m ms ih =>
    cases p with
    | cons single rest =>
      obtain ⟨l', first, second⟩ := ih rest
      exact ⟨l', .cons single first, second⟩

/-- A path begins with the ledger before its first moment. -/
theorem Path.eq_before (p : Path l ms l') (first : ms.head? = some m) : m.before = l := by
  cases p with
  | nil => cases first
  | cons single rest =>
    obtain rfl := Option.some.inj first
    rfl

/-- A path ends with the ledger after its last moment. -/
theorem Path.eq_after (p : Path l ms l') (last : ms.getLast? = some m) : m.after = l' := by
  obtain ⟨ms, rfl⟩ := List.getLast?_eq_some_iff.1 last
  obtain ⟨-, -, rest⟩ := p.split
  cases rest with
  | nil => rfl

/-- In the course of `ms` the slot was emptied, and whoever is in it in the record `b` has
been put there since. -/
def Reassigned (ms : List Moment) (owner : Identity) (k : Authority) (b : Account) : Prop :=
  ∃ before revoked after, ms = before ++ revoked :: after ∧
    revoked.accepted? = some ⟨owner, .act owner (.revoke k)⟩ ∧
    ∀ d start, b.slot k = .delegated d start → ∃ armed ∈ after, armed.Arms owner k d start

/-- One moment more. -/
theorem Reassigned.concat {c : Account} (h : Reassigned past owner k b)
    (slot : SlotStep m owner k b c) : Reassigned (past ++ [m]) owner k c := by
  obtain ⟨before, revoked, after, rfl, revokes, armed⟩ := h
  refine ⟨before, revoked, after ++ [m], by simp, revokes, fun d start taken => ?_⟩
  cases slot with
  | kept same =>
    rw [same] at taken
    obtain ⟨n, hn, arms⟩ := armed d start taken
    exact ⟨n, List.mem_append_left _ hn, arms⟩
  | filled e arms _ _ _ filled =>
    obtain ⟨rfl, rfl⟩ := Slot.delegated.inj (filled.symm.trans taken)
    exact ⟨m, List.mem_append_right _ List.mem_cons_self, arms⟩
  | emptied _ _ _ _ _ free => cases free.symm.trans taken

/-- A slot that is taken at the beginning is the same at the end, or it was emptied on the
way; and whoever is in it then has been put there afterwards. -/
theorem Path.reassigned (inv : Account.Invariant limits P) (p : Path l ms l')
    (h : l.Records limits P) (found : l.escrow? owner = some a)
    (taken : a.slot k = .delegated d start) :
    ∃ b, l'.escrow? owner = some b ∧ (b.slot k = a.slot k ∨ Reassigned ms owner k b) := by
  have along : l'.Records limits P ∧
      ∃ b, l'.escrow? owner = some b ∧ (b.slot k = a.slot k ∨ Reassigned ms owner k b) := by
    apply Path.grow
      (Q := fun ms l' => l'.Records limits P ∧
        ∃ b, l'.escrow? owner = some b ∧ (b.slot k = a.slot k ∨ Reassigned ms owner k b)) _ _ p
    · exact ⟨h, a, found, .inl rfl⟩
    · rintro past l s single ⟨records, b, found, same | reassigned⟩
      all_goals
        have here : RecordStep ⟨l, s⟩ owner := Records.recordStep records single owner
        obtain ⟨c, now, slots⟩ := here.slotStep (records.filed found) found
        refine ⟨records.step inv single, c, now, ?_⟩
      · cases slots k with
        | kept again => exact .inl (again.trans same)
        | filled _ _ _ _ free _ =>
          -- Nobody is put into a slot that is taken.
          cases free.symm.trans (same.trans taken)
        | emptied _ _ revoked _ _ free =>
          refine .inr ⟨past, ⟨l, s⟩, [], rfl, revoked, fun e again retaken => ?_⟩
          cases free.symm.trans retaken
      · exact .inr (reassigned.concat (slots k))
  exact along.2

/-- If at the end of a path a slot is not as it was at the beginning, but taken both times,
it was emptied on the way and filled again. -/
theorem Path.rearmed (inv : Account.Invariant limits P) (p : Path l ms l')
    (h : l.Records limits P) (found : l.escrow? owner = some a)
    (found' : l'.escrow? owner = some b) (taken : a.slot k = .delegated d start)
    (retaken : b.slot k = .delegated e again) (other : d ≠ e ∨ start ≠ again) :
    ∃ before revoked after, ms = before ++ revoked :: after ∧
      revoked.accepted? = some ⟨owner, .act owner (.revoke k)⟩ ∧
      ∃ armed ∈ after, armed.Arms owner k e again := by
  obtain ⟨c, now, same | reassigned⟩ := p.reassigned inv h found taken
  all_goals obtain rfl : b = c := Option.some.inj (found'.symm.trans now)
  · -- The same delegate, armed at the same time.
    rw [taken, retaken] at same
    obtain ⟨rfl, rfl⟩ := Slot.delegated.inj same
    rcases other with other | other
    · exact absurd rfl other
    · exact absurd rfl other
  · obtain ⟨before, revoked, after, parts, revokes, armed⟩ := reassigned
    exact ⟨before, revoked, after, parts, revokes, armed e again retaken⟩

/-- **Slots.**  Whoever is in a slot is neither the owner nor nobody.  From one moment to
the next each slot of a record stays, or is filled by its owner's delegation while it is
empty, or is emptied by its owner's revocation; a new record has empty slots.  So if a
slot holds another delegate than before, or was armed at another time, then in between it
was revoked and, after that, delegated anew, which is when its lock began.  What is done
to one slot leaves the other alone, and the owner takes funds out only while both are
empty. -/
theorem slots_assigned_once (limits : Limits) (retention : Nat) (steps : List Step) :
    let start := Ledger.fresh limits retention
    let past := start.trace steps
    (∀ l, l = start.run steps ∨ (∃ m ∈ past, l = m.before) →
        ∀ owner a k d armedAt, l.escrow? owner = some a → a.slot k = .delegated d armedAt →
          d ≠ owner ∧ d ≠ .unset) ∧
      (∀ m ∈ past, ∀ owner a, m.before.escrow? owner = some a →
        ∃ b, m.after.escrow? owner = some b ∧
          ∀ k,
            b.slot k = a.slot k ∨
              (∃ d, m.accepted? = some ⟨owner, .act owner (.delegate k d)⟩ ∧
                a.status = .active ∧ ¬ a.Expired m.before.now ∧
                a.slot k = .empty ∧ b.slot k = .delegated d m.before.now) ∨
              ∃ d armedAt, m.accepted? = some ⟨owner, .act owner (.revoke k)⟩ ∧
                a.status = .active ∧
                a.slot k = .delegated d armedAt ∧ b.slot k = .empty) ∧
      (∀ m ∈ past, ∀ owner b, m.before.escrow? owner = none → m.after.escrow? owner = some b →
        ∀ k, b.slot k = .empty) ∧
      (∀ earlier stretch later, past = earlier ++ stretch ++ later →
        ∀ m n, stretch.head? = some m → stretch.getLast? = some n →
          ∀ owner a b, m.before.escrow? owner = some a → n.after.escrow? owner = some b →
            ∀ k d e armedAt again, a.slot k = .delegated d armedAt →
              b.slot k = .delegated e again → d ≠ e ∨ armedAt ≠ again →
                ∃ before revoked after, stretch = before ++ revoked :: after ∧
                  revoked.accepted? = some ⟨owner, .act owner (.revoke k)⟩ ∧
                  ∃ armed ∈ after,
                    armed.accepted? = some ⟨owner, .act owner (.delegate k e)⟩ ∧
                      armed.before.now = again) ∧
      (∀ m ∈ past, ∀ owner a b, m.before.escrow? owner = some a →
        m.after.escrow? owner = some b →
          ∀ j k, j ≠ k →
            (∃ d, m.Performs owner (.delegate j d)) ∨ m.Performs owner (.revoke j) →
              b.slot k = a.slot k) ∧
      ∀ m ∈ past, ∀ owner action, m.Performs owner action →
        (∃ amount, action = .withdraw amount ∨ action = .emergencyWithdraw amount) ∨
            action = .close →
          ∃ a, m.before.escrow? owner = some a ∧ a.platform = .empty ∧ a.trading = .empty := by
  intro start past
  have inv := Account.outsiders_invariant limits
  obtain ⟨last, each⟩ := Records.run inv retention steps
  have path : Path start past (start.run steps) := path_trace start steps
  have slots : ∀ m ∈ past, ∀ owner a, m.before.escrow? owner = some a →
      ∃ b, m.after.escrow? owner = some b ∧ ∀ k, SlotStep m owner k a b := by
    intro m hm owner a found
    have here := (each m hm).recordStep (path.single_of_mem hm) owner
    exact here.slotStep ((each m hm).filed found) found
  refine ⟨?_, ?_, ?_, ?_, ?_, ?_⟩
  · intro l reached owner a k d armedAt found taken
    have records : l.Records limits Account.Outsiders := by
      rcases reached with rfl | ⟨m, hm, rfl⟩
      · exact last
      · exact each m hm
    rw [← records.filed found]
    exact records.each found taken
  · intro m hm owner a found
    obtain ⟨b, after, slot⟩ := slots m hm owner a found
    refine ⟨b, after, fun k => ?_⟩
    cases slot k with
    | kept same => exact .inl same
    | filled d arms active unexpired free taken =>
      exact .inr (.inl ⟨d, arms.1, active, unexpired, free, taken⟩)
    | emptied d armedAt revoked active taken free =>
      exact .inr (.inr ⟨d, armedAt, revoked, active, taken, free⟩)
  · intro m hm owner b absent found k
    have here := (each m hm).recordStep (path.single_of_mem hm) owner
    exact here.slot_of_opened absent found k
  · intro earlier stretch later split m n first final owner a b found found' k d e armedAt again
      taken retaken other
    rw [split, List.append_assoc] at path
    obtain ⟨l, before, rest⟩ := path.of_append
    obtain ⟨l', along, -⟩ := rest.of_append
    obtain rfl := along.eq_before first
    obtain rfl := along.eq_after final
    have records : m.before.Records limits Account.Outsiders := by
      have hm : m ∈ past := by
        rw [split]
        exact List.mem_append_left _ (List.mem_append_right _ (List.mem_of_mem_head? first))
      exact each m hm
    exact along.rearmed inv records found found' taken retaken other
  · intro m hm owner a b found found' j k other done
    obtain ⟨c, after, slot⟩ := slots m hm owner a found
    obtain rfl : b = c := Option.some.inj (found'.symm.trans after)
    exact (slot k).same_of_other other done
  · rintro m hm owner action ⟨signer, accepted⟩ leaves
    obtain ⟨a, t, found, staged⟩ :=
      (each m hm).staged_of_accepted (path.single_of_mem hm) accepted
    have needs : action.NeedsUndelegated := by
      rcases leaves with ⟨amount, rfl | rfl⟩ | rfl <;> trivial
    have free := (Action.stage_control staged).undelegated needs
    exact ⟨a, found, Account.not_delegated_iff.1 free⟩

end Ledger

end DelegatedEscrow
