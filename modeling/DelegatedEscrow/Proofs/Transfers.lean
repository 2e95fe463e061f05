/-
DelegatedEscrow/Proofs/Transfers.lean

Custody as double entry.  What a transfer takes from one holder it gives to
another, in the same token, and no other balance changes:

    balance after + (taken from this holder) = balance before + (given to it)

Written with sums on both sides, `transfer_entries` needs no case for a holder
that pays itself, and no subtraction.  `issue_entries` is the same law for new
tokens, which come from nowhere.

A transfer that fails leaves every balance and the count of transfers as they
were.  `transfer_cases` tells the three ways in which a transfer can end.
-/
import DelegatedEscrow.Custody

namespace DelegatedEscrow

namespace Custody

variable {c d : Custody} {source target h k : Holder} {mint : Mint} {token other : Identity}
variable {a : Amount} {f : CustodyFault}

/-- What an entry over `a` for the purse of `h` in `token` means for the purse of
`k` in `other`: all of it or nothing. -/
def entry (h : Holder) (token : Identity) (a : Amount) (k : Holder) (other : Identity) : Nat :=
  if h = k ∧ token = other then a.toNat else 0

theorem entry_of_ne (ne : h ≠ k) : entry h token a k other = 0 :=
  if_neg fun same => ne same.1

theorem entry_zero : entry h token 0 k other = 0 := by
  simp [entry]

theorem entry_add {b x : Amount} (total : b.toNat = a.toNat + x.toNat) (h : Holder)
    (token : Identity) (k : Holder) (other : Identity) :
    entry h token b k other = entry h token a k other + entry h token x k other := by
  unfold entry
  split
  · exact total
  · rfl

/-! ### New tokens -/

theorem issue_eq_ok_iff :
    c.issue h mint a = .ok d ↔
      ∃ credited, credited.toNat = (c.balance h mint.id).toNat + a.toNat ∧
        d = c.put h mint.id credited := by
  simp only [issue, balanceIn, bind_eq_ok_iff, demand_eq_ok_iff, Amount.add?_eq_some_iff,
    pure_eq_ok_iff, eq_comm (b := d)]

/-- New tokens are credited to one purse. -/
theorem issue_entries (done : c.issue h mint a = .ok d) (k : Holder) (other : Identity) :
    (d.balance k other).toNat = (c.balance k other).toNat + entry h mint.id a k other := by
  obtain ⟨credited, total, rfl⟩ := issue_eq_ok_iff.1 done
  rw [balance_put, entry]
  split
  · next here =>
    obtain ⟨rfl, rfl⟩ := here
    exact total
  · rfl

/-! ### Moves -/

theorem move_eq_ok_iff :
    c.move source target mint a = .ok d ↔
      ∃ debited, debited.toNat + a.toNat = (c.balance source mint.id).toNat ∧
        (source = target ∧ d = c ∨
          source ≠ target ∧
            ∃ credited, credited.toNat = (c.balance target mint.id).toNat + a.toNat ∧
              d = (c.put source mint.id debited).put target mint.id credited) := by
  simp only [move, balanceIn, bind_eq_ok_iff, demand_eq_ok_iff, Amount.sub?_eq_some_iff]
  refine exists_congr fun debited => and_congr_right fun _ => ?_
  by_cases same : source = target
  · rw [if_pos same, pure_eq_ok_iff]
    simp [same, eq_comm (b := d)]
  · simp only [if_neg same, bind_eq_ok_iff, demand_eq_ok_iff, Amount.add?_eq_some_iff,
      pure_eq_ok_iff, eq_comm (b := d)]
    simp [same]

/-- **Double entry**: what a move takes from one purse it gives to another. -/
theorem move_entries (done : c.move source target mint a = .ok d) (k : Holder)
    (other : Identity) :
    (d.balance k other).toNat + entry source mint.id a k other =
      (c.balance k other).toNat + entry target mint.id a k other := by
  obtain ⟨debited, taken, ⟨rfl, rfl⟩ | ⟨apart, credited, given, rfl⟩⟩ := move_eq_ok_iff.1 done
  · rfl
  · -- The target is written last, so its purse is looked at first.
    rw [balance_put, balance_put, entry, entry]
    by_cases atTarget : target = k ∧ mint.id = other
    · obtain ⟨rfl, rfl⟩ := atTarget
      rw [if_pos ⟨rfl, rfl⟩, if_neg fun same => apart same.1, if_pos ⟨rfl, rfl⟩]
      omega
    · rw [if_neg atTarget, if_neg atTarget]
      by_cases atSource : source = k ∧ mint.id = other
      · obtain ⟨rfl, rfl⟩ := atSource
        rw [if_pos ⟨rfl, rfl⟩, if_pos ⟨rfl, rfl⟩]
        omega
      · rw [if_neg atSource, if_neg atSource]

theorem move_eq_error_iff :
    c.move source target mint a = .error f ↔
      ((c.balance source mint.id).toNat < a.toNat ∧
        f = .insufficientFunds source (c.balance source mint.id) a) ∨
      (a.toNat ≤ (c.balance source mint.id).toNat ∧ source ≠ target ∧
        UInt64.size ≤ (c.balance target mint.id).toNat + a.toNat ∧ f = .overflow target) := by
  rw [move, bind_eq_error_iff]
  simp only [balanceIn, demand_eq_error_iff, demand_eq_ok_iff, Amount.sub?_eq_none_iff]
  refine or_congr (and_congr_right fun _ => eq_comm) ?_
  by_cases same : source = target
  · simp [same]
  · constructor
    · rintro ⟨debited, taken, full⟩
      rw [if_neg same, bind_eq_error_iff] at full
      simp only [demand_eq_error_iff, Amount.add?_eq_none_iff, pure_ne_error, and_false,
        exists_false, or_false] at full
      rw [Amount.sub?_eq_some_iff] at taken
      exact ⟨by omega, same, full.1, full.2.symm⟩
    · rintro ⟨enough, -, full, rfl⟩
      rcases e : (c.balance source mint.id).sub? a with - | debited
      · rw [Amount.sub?_eq_none_iff] at e
        omega
      · refine ⟨debited, rfl, ?_⟩
        rw [if_neg same, bind_eq_error_iff]
        exact .inl (demand_eq_error_iff.2 ⟨Amount.add?_eq_none_iff.2 full, rfl⟩)

/-! ### Transfers -/

/-- The three ways a transfer ends: stopped by the armed failure, which is then
spent; refused, with custody as it was; or done and counted. -/
theorem transfer_cases (c : Custody) (source target : Holder) (mint : Mint) (a : Amount) :
    (∃ reason, c.armed = some reason ∧
        c.transfer source target mint a =
          ({ c with armed := none }, .error (.rejected reason))) ∨
      (∃ f, c.armed = none ∧ c.move source target mint a = .error f ∧
        c.transfer source target mint a = (c, .error f)) ∨
      ∃ moved, c.armed = none ∧ c.move source target mint a = .ok moved ∧
        c.transfer source target mint a =
          ({ moved with transfers := c.transfers + 1 }, .ok ()) := by
  unfold transfer
  rcases c.armed with - | reason
  · rcases c.move source target mint a with f | moved
    · exact .inr (.inl ⟨f, rfl, rfl, rfl⟩)
    · exact .inr (.inr ⟨moved, rfl, rfl, rfl⟩)
  · exact .inl ⟨reason, rfl, rfl⟩

/-- **Double entry** for a transfer that went through. -/
theorem transfer_entries (done : c.transfer source target mint a = (d, .ok ())) (k : Holder)
    (other : Identity) :
    (d.balance k other).toNat + entry source mint.id a k other =
      (c.balance k other).toNat + entry target mint.id a k other := by
  rcases transfer_cases c source target mint a with
    ⟨_, -, e⟩ | ⟨_, -, -, e⟩ | ⟨moved, -, shifted, e⟩
  · rw [done] at e
    cases e
  · rw [done] at e
    cases e
  · rw [done] at e
    cases e
    exact move_entries shifted k other

/-- A transfer that fails changes no more than the armed failure, which it spends
exactly if that is why it failed. -/
theorem transfer_error (failed : c.transfer source target mint a = (d, .error f)) :
    (∃ reason, f = .rejected reason ∧ c.armed = some reason ∧ d = { c with armed := none }) ∨
      ((∀ reason, f ≠ .rejected reason) ∧ c.armed = none ∧ d = c) := by
  rcases transfer_cases c source target mint a with
    ⟨reason, armed, e⟩ | ⟨_, unarmed, refused, e⟩ | ⟨_, -, -, e⟩
  · rw [failed] at e
    cases e
    exact .inl ⟨reason, rfl, armed, rfl⟩
  · rw [failed] at e
    cases e
    refine .inr ⟨fun reason isRejected => ?_, unarmed, rfl⟩
    rw [isRejected, move_eq_error_iff] at refused
    rcases refused with ⟨-, e⟩ | ⟨-, -, -, e⟩ <;> cases e
  · rw [failed] at e
    cases e

/-- Tokens that could not be moved are where they were. -/
theorem balance_of_transfer_error (failed : c.transfer source target mint a = (d, .error f))
    (k : Holder) (other : Identity) : d.balance k other = c.balance k other := by
  rcases transfer_error failed with ⟨_, -, -, rfl⟩ | ⟨-, -, rfl⟩ <;> rfl

/-- A transfer goes through if nothing is armed, the source has the tokens and the
target has room. -/
theorem transfer_ok (unarmed : c.armed = none) (enough : a.toNat ≤ (c.balance source mint.id).toNat)
    (room : (c.balance target mint.id).toNat + a.toNat < UInt64.size) :
    ∃ d, c.transfer source target mint a = (d, .ok ()) := by
  rcases transfer_cases c source target mint a with
    ⟨_, armed, -⟩ | ⟨f, -, refused, -⟩ | ⟨moved, -, -, e⟩
  · cases unarmed.symm.trans armed
  · rcases move_eq_error_iff.1 refused with ⟨short, -⟩ | ⟨-, -, full, -⟩ <;> omega
  · exact ⟨_, e⟩

/-- Between two holders, that is also what it takes. -/
theorem transfer_ok_iff (unarmed : c.armed = none) (apart : source ≠ target) :
    (∃ d, c.transfer source target mint a = (d, .ok ())) ↔
      a.toNat ≤ (c.balance source mint.id).toNat ∧
        (c.balance target mint.id).toNat + a.toNat < UInt64.size := by
  constructor
  · rintro ⟨d, done⟩
    have atSource := transfer_entries done source mint.id
    have atTarget := transfer_entries done target mint.id
    rw [entry_of_ne apart.symm] at atSource
    rw [entry_of_ne apart] at atTarget
    -- What is left at the source and what is there at the target are amounts themselves.
    have filled := (d.balance target mint.id).toNat_lt
    simp only [entry, and_self, if_true] at atSource atTarget
    omega
  · rintro ⟨enough, room⟩
    exact transfer_ok unarmed enough room

theorem transfers_transfer (done : c.transfer source target mint a = (d, .ok ())) :
    d.transfers = c.transfers + 1 := by
  rcases transfer_cases c source target mint a with ⟨_, -, e⟩ | ⟨_, -, -, e⟩ | ⟨_, -, -, e⟩
  · cases done.symm.trans e
  · cases done.symm.trans e
  · cases done.symm.trans e
    rfl

/-! ### Armed failures -/

theorem armed_move (done : c.move source target mint a = .ok d) : d.armed = c.armed := by
  obtain ⟨_, -, ⟨-, rfl⟩ | ⟨-, _, -, rfl⟩⟩ := move_eq_ok_iff.1 done
  · rfl
  · rfl

/-- A transfer goes through only if no failure is armed, and arms none. -/
theorem armed_transfer (done : c.transfer source target mint a = (d, .ok ())) :
    d.armed = none := by
  rcases transfer_cases c source target mint a with
    ⟨_, -, e⟩ | ⟨_, -, -, e⟩ | ⟨moved, unarmed, shifted, e⟩
  · cases done.symm.trans e
  · cases done.symm.trans e
  · cases done.symm.trans e
    exact (armed_move shifted).trans unarmed

/-- While no failure is armed, two purses decide whether a transfer goes through. -/
theorem transfer_congr {c' : Custody} (unarmed : c.armed = none) (unarmed' : c'.armed = none)
    (atSource : c'.balance source mint.id = c.balance source mint.id)
    (atTarget : c'.balance target mint.id = c.balance target mint.id) :
    (c'.transfer source target mint a).2 = (c.transfer source target mint a).2 := by
  simp only [transfer, move, balanceIn, unarmed, unarmed', atSource, atTarget]
  rcases (c.balance source mint.id).sub? a with - | debited
  · rfl
  · by_cases same : source = target
    · simp only [if_pos same]
      rfl
    · simp only [if_neg same]
      rcases (c.balance target mint.id).add? a with - | credited
      · rfl
      · rfl

end Custody

end DelegatedEscrow
