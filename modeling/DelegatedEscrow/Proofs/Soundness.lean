/-
DelegatedEscrow/Proofs/Soundness.lean

Every record that a run brings about is sound, whatever the limits, the
signers, the readings of the clock and the dealings in custody.

Soundness is an invariant of records: a new escrow has nothing to account for,
and an action that moves an amount books the same amount.  `records_sound` adds
that each transition staged on the way was sound already, before it was
written; a ledger that asserted soundness at that point would never stop.
-/
import DelegatedEscrow.Account.Soundness
import DelegatedEscrow.Proofs.Records

namespace DelegatedEscrow

namespace Account

variable {s : Setting} {signer owner : Identity} {a : Account} {action : Action}
variable {mint : Mint} {ceiling : Amount} {caps : LifetimeCaps} {t : Transition}

theorem sound_create (h : s.create owner mint ceiling caps = .ok t) : t.account.Sound := by
  obtain ⟨-, -, granted, -, rfl⟩ := Setting.create_eq_ok_iff.1 h
  exact ⟨Nat.zero_le _, rfl, fun closed => by cases closed⟩

theorem sound_stage (sound : a.Sound) (h : action.stage s signer a = .ok t) :
    t.account.Sound := by
  obtain ⟨terms, books, closed, -⟩ := Action.stage_effect h
  have below := sound.balance_le
  have accounted := sound.deposited_eq
  rw [Amount.le_iff_toNat_le] at below
  cases books with
  | still _ balance totals =>
    refine ⟨?_, ?_, closed⟩
    · rw [balance, terms.ceiling]
      exact sound.balance_le
    · rw [balance, totals]
      exact accounted
  | paidIn amount _ _ _ balance within deposited outflow =>
    refine ⟨?_, ?_, closed⟩
    · rw [terms.ceiling]
      exact within
    · rw [deposited, outflow, balance]
      omega
  | paidOut amount _ _ balance deposited outflow =>
    refine ⟨?_, ?_, closed⟩
    · rw [terms.ceiling, Amount.le_iff_toNat_le]
      omega
    · rw [deposited, outflow]
      omega

theorem sound_invariant (limits : Limits) : Invariant limits Sound where
  opened := sound_create
  acted := sound_stage

end Account

namespace Ledger

/-- **Soundness of a run.**  Every record is filed under its owner and passes
its check: the balance is below the ceiling, the totals account for it exactly,
and a closed escrow holds nothing and nobody.  So does every transition that was
staged on the way, whether or not its tokens then moved. -/
theorem records_sound (limits : Limits) (retention : Nat) (steps : List Step) :
    (∀ owner a, ((Ledger.fresh limits retention).run steps).escrow? owner = some a →
      a.owner = owner ∧ a.check = .ok () ∧ a.balance ≤ a.ceiling ∧
        a.totals.deposited.toNat =
          a.totals.withdrawn.toNat + a.totals.fees.toNat + a.totals.traded.toNat +
            a.balance.toNat ∧
        (a.status = .closed → a.balance = 0 ∧ a.platform = .empty ∧ a.trading = .empty)) ∧
      ∀ m ∈ (Ledger.fresh limits retention).trace steps, ∀ s t,
        m.step = .submit s → m.before.stage s = .ok t → t.account.check = .ok () := by
  have inv := Account.sound_invariant limits
  obtain ⟨last, each⟩ := Records.run inv retention steps
  constructor
  · intro owner a found
    have sound := last.each found
    refine ⟨last.filed found, Account.check_eq_ok_iff.2 sound, sound.balance_le,
      sound.deposited_eq, fun closed => ?_⟩
    obtain ⟨empty, free⟩ := sound.closed_empty closed
    exact ⟨empty, Account.not_delegated_iff.1 free⟩
  · intro m hm s t _ staged
    exact Account.check_eq_ok_iff.2 ((each m hm).stage inv staged)

end Ledger

end DelegatedEscrow
