/-
DelegatedEscrow/Proofs/Submission.lean

One instruction, submitted to a ledger.  `submit_cases` tells the three ways in
which that ends: the rule refuses, custody refuses, or the transition is
written.  All that is proved about single instructions starts there.
-/
import DelegatedEscrow.Ledger.Step
import DelegatedEscrow.Proofs.Effects

namespace DelegatedEscrow

namespace Ledger

variable {l : Ledger} {s : Signed} {signer owner : Identity} {a : Account} {c : Custody}
variable {t : Transition}

/-- The ledger once a transition has taken effect, with custody `c`. -/
def written (l : Ledger) (c : Custody) (t : Transition) : Ledger :=
  { l with
    custody := c
    journal := (l.journal.record l.now t.account.owner t.account.nonce t.payload).1
    escrows := l.escrows.insert t.account.owner t.account }

/-- The receipt for a transition that takes effect. -/
def receiptFor (l : Ledger) (t : Transition) : Receipt where
  eventId := l.journal.nextId
  escrow := t.account.owner
  balance := t.account.balance
  nonce := t.account.nonce

theorem escrow?_written :
    (l.written c t).escrow? owner =
      if t.account.owner = owner then some t.account else l.escrow? owner := by
  simp only [escrow?, written, Std.ExtTreeMap.getElem?_insert,
    Std.LawfulEqCmp.compare_eq_iff_eq]

/-! ### How a submission ends -/

theorem submit_cases (l : Ledger) (s : Signed) :
    (∃ f, l.stage s = .error f ∧ l.submit s = (l, .error f)) ∨
      (∃ t c f, l.stage s = .ok t ∧ t.settle l.custody = (c, .error f) ∧
        l.submit s = ({ l with custody := c }, .error (.custody f))) ∨
      ∃ t c, l.stage s = .ok t ∧ t.settle l.custody = (c, .ok ()) ∧
        l.submit s = (l.written c t, .ok (l.receiptFor t)) := by
  unfold submit
  rcases l.stage s with f | t
  · exact .inl ⟨f, rfl, rfl⟩
  · rcases e : t.settle l.custody with ⟨c, f | done⟩
    · exact .inr (.inl ⟨t, c, f, rfl, e, by simp only [commit, e]⟩)
    · exact .inr (.inr ⟨t, c, rfl, e, by simp only [commit, e]; rfl⟩)

/-- What its rule refuses changes nothing. -/
theorem submit_of_unstaged {f : Fault} (unstaged : l.stage s = .error f) :
    l.submit s = (l, .error f) := by
  rw [submit, unstaged]

/-- What custody refuses changes custody at most. -/
theorem submit_of_unsettled {f : CustodyFault} (staged : l.stage s = .ok t)
    (unsettled : t.settle l.custody = (c, .error f)) :
    l.submit s = ({ l with custody := c }, .error (.custody f)) := by
  rw [submit, staged]
  simp only [commit, unsettled]

/-- A transition that was staged and can be settled takes effect. -/
theorem submit_of_settled (staged : l.stage s = .ok t)
    (settled : t.settle l.custody = (c, .ok ())) :
    l.submit s = (l.written c t, .ok (l.receiptFor t)) := by
  rcases submit_cases l s with ⟨_, e, -⟩ | ⟨_, _, _, e, unsettled, -⟩ | ⟨_, _, e, done, taken⟩
  · cases staged.symm.trans e
  · cases staged.symm.trans e
    cases settled.symm.trans unsettled
  · cases staged.symm.trans e
    cases settled.symm.trans done
    exact taken

/-- An instruction that is accepted was staged and settled, and is written. -/
theorem submit_eq_ok {l' : Ledger} {r : Receipt} (accepted : l.submit s = (l', .ok r)) :
    ∃ t c, l.stage s = .ok t ∧ t.settle l.custody = (c, .ok ()) ∧
      l' = l.written c t ∧ r = l.receiptFor t := by
  rcases submit_cases l s with ⟨_, -, e⟩ | ⟨_, _, _, -, -, e⟩ | ⟨t, c, staged, settled, e⟩
  · cases accepted.symm.trans e
  · cases accepted.symm.trans e
  · cases accepted.symm.trans e
    exact ⟨t, c, staged, settled, rfl, rfl⟩

theorem stage_of_submit_ok {r : Receipt} (accepted : (l.submit s).2 = .ok r) :
    ∃ t, l.stage s = .ok t := by
  obtain ⟨t, _, staged, -⟩ := submit_eq_ok (Prod.ext rfl accepted)
  exact ⟨t, staged⟩

theorem limits_submit (l : Ledger) (s : Signed) : (l.submit s).1.limits = l.limits := by
  rcases submit_cases l s with ⟨_, -, e⟩ | ⟨_, _, _, -, -, e⟩ | ⟨_, _, -, -, e⟩
  · rw [e]
  · rw [e]
  · rw [e]
    rfl

/-! ### What is staged -/

theorem stage_create_eq_ok_iff {mint : Mint} {ceiling : Amount} {caps : LifetimeCaps} :
    l.stage ⟨signer, .create mint ceiling caps⟩ = .ok t ↔
      l.escrow? signer = none ∧ l.setting.create signer mint ceiling caps = .ok t := by
  rw [stage, unit_bind_eq_ok_iff, require_eq_ok_iff]

theorem stage_act_eq_ok_iff {action : Action} :
    l.stage ⟨signer, .act owner action⟩ = .ok t ↔
      ∃ a, l.escrow? owner = some a ∧ action.stage l.setting signer a = .ok t := by
  rw [stage, bind_eq_ok_iff]
  simp only [escrow, demand_eq_ok_iff]

end Ledger

end DelegatedEscrow
