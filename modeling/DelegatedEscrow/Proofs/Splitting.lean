/-
DelegatedEscrow/Proofs/Splitting.lean

An amount in two parts.  What an owner may pay at once may be paid in two parts, and what
may be paid in two parts may be paid at once; and it comes to the same:

    pay x, then pay y   =   pay x + y

Each bound on a payment of the owner is on what it adds up to, with everything that went
before, so `x` units more of it are spoken for afterwards, or `x` units less are there;
either way it then admits `y` exactly if it admitted `x + y` before (`Paid.admits_iff`).
That is not so for a delegate, who has a bound on each call.

What an accepted payment does is `Paid`.  It composes, and it leaves no choice as to
records and balances, so both ways end in the same books.
-/
import DelegatedEscrow.Proofs.Payments

namespace DelegatedEscrow

/-! ### One payment in the record -/

namespace Payment

/-- The payments that the owner makes. -/
def Owners (p : Payment) : Prop := p = deposit ∨ p = withdraw ∨ p = emergencyWithdraw

/-- What the funds of a payment are booked as. -/
def flow : Payment → Flow
  | deposit => .deposit
  | withdraw => .withdrawal
  | emergencyWithdraw => .emergencyWithdrawal
  | collectFee _ => .subscriptionFee
  | trade _ _ => .tradeWithdrawal

/-- A payment of `n` units takes a balance from `x` to `y`. -/
def Turns (p : Payment) (n x y : Nat) : Prop :=
  match p with
  | deposit => y = x + n
  | _ => y + n = x

/-- From `a` to `b` a payment of `n` units is booked, and nothing else changes. -/
structure Posts (p : Payment) (n : Nat) (a b : Account) : Prop where
  kept : b = { a with balance := b.balance, totals := b.totals }
  balance : p.Turns n a.balance.toNat b.balance.toNat
  totals : a.totals.Grows b.totals p.flow.total n

variable {p : Payment} {s : Setting} {signer : Identity} {a b d : Account} {m n : Nat}
variable {x y z : Nat} {amount : Amount} {t : Transition}

theorem Turns.trans (first : p.Turns m x y) (second : p.Turns n y z) : p.Turns (m + n) x z := by
  cases p <;>
  · simp only [Turns] at *
    omega

theorem Turns.unique (one : p.Turns n x y) (other : p.Turns n x z) : y = z := by
  cases p <;>
  · simp only [Turns] at *
    omega

namespace Posts

theorem terms (h : p.Posts n a b) : b.SameTerms a := by
  rw [h.kept]
  exact ⟨rfl, rfl, rfl, rfl, rfl⟩

/-- What is asked apart from the amount is still there after a payment. -/
theorem gate_iff (h : p.Posts n a b) : p.Gate s signer b ↔ p.Gate s signer a := by
  rw [h.kept]
  cases p <;> exact Iff.rfl

/-- The bounds of a record admit afterwards what they admitted together with the payment. -/
theorem bookings_iff (h : p.Posts m a b) (owns : p.Owners) {limits : Limits} :
    (∀ bound ∈ p.bookings limits b, bound.Admits n) ↔
      ∀ bound ∈ p.bookings limits a, bound.Admits (m + n) := by
  cases p with
  | deposit =>
    have deposited : b.totals.deposited.toNat = a.totals.deposited.toNat + m :=
      h.totals .deposited
    have raised : b.balance.toNat = a.balance.toNat + m := h.balance
    simp [bookings, Bound.Admits, h.terms.ceiling, h.terms.caps, deposited, raised, Nat.add_assoc]
  | withdraw =>
    have lowered : b.balance.toNat + m = a.balance.toNat := h.balance
    simp only [bookings, List.forall_mem_singleton, Bound.Admits]
    omega
  | emergencyWithdraw =>
    have lowered : b.balance.toNat + m = a.balance.toNat := h.balance
    simp only [bookings, List.forall_mem_singleton, Bound.Admits]
    omega
  | collectFee nonce => simp [Owners] at owns
  | trade nonce deadline => simp [Owners] at owns

theorem trans (first : p.Posts m a b) (second : p.Posts n b d) : p.Posts (m + n) a d where
  kept := by
    rw [second.kept, first.kept]
  balance := first.balance.trans second.balance
  totals := first.totals.trans second.totals

theorem unique (one : p.Posts n a b) (other : p.Posts n a d) : b = d := by
  have balance : b.balance = d.balance := Amount.toNat_inj.1 (one.balance.unique other.balance)
  have totals : b.totals = d.totals := one.totals.unique other.totals
  rw [one.kept, other.kept, balance, totals]

end Posts

theorem posts_deposit (h : a.deposit s signer amount = .ok t) :
    deposit.Posts amount.toNat a t.account := by
  obtain ⟨-, -, -, -, balance, hb, -, deposited, hd, -, rfl⟩ := Account.deposit_eq_ok_iff.1 h
  refine ⟨rfl, hb, fun j => ?_⟩
  cases j <;> simp [Transition.payIn, Totals.of, flow, Flow.total, hd]

theorem posts_takeBack {kind : Flow} (h : a.takeBack signer kind amount = .ok t) :
    withdraw.Posts amount.toNat a t.account := by
  obtain ⟨-, -, balance, hb, withdrawn, hw, rfl⟩ := Account.takeBack_eq_ok_iff.1 h
  refine ⟨rfl, hb, fun j => ?_⟩
  cases j <;> simp [Transition.payOut, Totals.of, flow, Flow.total, hw]

/-- The rules of the owner's payments book what is paid. -/
theorem posts_stage (owns : p.Owners)
    (h : (p.action amount).stage s signer a = .ok t) : p.Posts amount.toNat a t.account := by
  cases p with
  | deposit => exact posts_deposit h
  | withdraw =>
    obtain ⟨-, -, taken⟩ := Account.withdraw_eq_ok_iff.1 h
    exact posts_takeBack taken
  | emergencyWithdraw =>
    -- The two withdrawals are booked alike.
    obtain ⟨-, -, taken⟩ := Account.emergencyWithdraw_eq_ok_iff.1 h
    obtain ⟨kept, balance, totals⟩ := posts_takeBack taken
    exact ⟨kept, balance, totals⟩
  | collectFee nonce => simp [Owners] at owns
  | trade nonce deadline => simp [Owners] at owns

end Payment

/-! ### One payment in the ledger -/

namespace Ledger

/-- From `l` to `l'` an amount is paid: record and custody follow, and all else but the
journal stays. -/
structure Paid (p : Payment) (signer : Identity) (x : Amount) (l : Ledger) (a : Account)
    (l' : Ledger) (b : Account) : Prop where
  found : l.escrow? a.owner = some a
  written : l'.escrow? a.owner = some b
  posts : p.Posts x.toNat a b
  frame : l.Frame l' a.owner
  entries : ∀ k token,
    (l'.custody.balance k token).toNat +
        Custody.entry (p.source a.owner signer) a.mint.id x k token =
      (l.custody.balance k token).toNat +
        Custody.entry (p.target a.owner signer) a.mint.id x k token
  unarmed : l'.custody.armed = none

/-- Two ledgers with the same records, balances, clock and limits. -/
structure SameBooks (l l' : Ledger) : Prop where
  limits : l'.limits = l.limits
  now : l'.now = l.now
  escrows : l'.escrows = l.escrows
  balance : ∀ h token, l'.custody.balance h token = l.custody.balance h token
  armed : l'.custody.armed = l.custody.armed

variable {l l' l'' : Ledger} {p : Payment} {owner signer : Identity} {a b d : Account}
variable {x y z : Amount} {limits : Limits} {P : Account → Prop} {r : Receipt}

/-- A payment of the owner that is accepted is carried out. -/
theorem Records.paid (records : l.Records limits P) (unarmed : l.custody.armed = none)
    (owns : p.Owners) (found : l.escrow? owner = some a)
    (accepted : ∃ r, (l.submit (p.signed owner signer x)).2 = .ok r) :
    ∃ b, Paid p signer x l a (l.submit (p.signed owner signer x)).1 b := by
  obtain ⟨r, accepted⟩ := accepted
  rcases e : l.submit (p.signed owner signer x) with ⟨l', o⟩
  obtain rfl : o = .ok r := (congrArg Prod.snd e).symm.trans accepted
  obtain ⟨t, c, staged, settled, rfl, -⟩ := submit_eq_ok e
  obtain ⟨a', found', acted⟩ := stage_act_eq_ok_iff.1 staged
  obtain rfl : a = a' := Option.some.inj (found.symm.trans found')
  obtain rfl : a.owner = owner := records.filed found
  obtain ⟨movement, mint⟩ := Payment.movement_stage acted
  have posts := Payment.posts_stage owns acted
  have same : t.account.owner = a.owner := posts.terms.owner
  refine ⟨t.account, ?_⟩
  constructor
  · exact found
  · rw [escrow?_written, if_pos same]
  · exact posts
  · rw [← same]
    exact frame_written
  · rw [Transition.settle_of_some movement, mint] at settled
    exact Custody.transfer_entries settled
  · exact Transition.armed_settle unarmed settled

namespace Paid

/-- The source has so much less, and the target so much more. -/
theorem purses (h : Paid p signer x l a l' b) :
    (l'.custody.balance (p.source a.owner signer) a.mint.id).toNat + x.toNat =
        (l.custody.balance (p.source a.owner signer) a.mint.id).toNat ∧
      (l'.custody.balance (p.target a.owner signer) a.mint.id).toNat =
        (l.custody.balance (p.target a.owner signer) a.mint.id).toNat + x.toNat := by
  -- The two purses are different, so each has one of the two entries.
  have apart := p.source_ne_target a.owner signer
  have atSource := h.entries (p.source a.owner signer) a.mint.id
  have atTarget := h.entries (p.target a.owner signer) a.mint.id
  rw [Custody.entry_of_ne apart.symm] at atSource
  rw [Custody.entry_of_ne apart] at atTarget
  simp only [Custody.entry, and_self, if_true] at atSource atTarget
  exact ⟨atSource, atTarget⟩

/-- **Bounds add up**: afterwards they admit what they admitted together with the payment. -/
theorem admits_iff (h : Paid p signer x l a l' b) (owns : p.Owners) (n : Nat) :
    (∀ bound ∈ p.bounds l' signer b, bound.Admits n) ↔
      ∀ bound ∈ p.bounds l signer a, bound.Admits (x.toNat + n) := by
  obtain ⟨atSource, atTarget⟩ := h.purses
  rw [Payment.bounds, Payment.bounds, List.forall_mem_append, List.forall_mem_append,
    h.frame.limits, h.posts.bookings_iff owns, h.posts.terms.owner, h.posts.terms.mint]
  refine and_congr_right fun _ => ?_
  simp only [Payment.purses, List.forall_mem_cons, List.not_mem_nil, false_implies, implies_true,
    and_true, Bound.Admits]
  omega

/-- After a payment, another one is accepted just if there was room for both. -/
theorem pays_iff (h : Paid p signer x l a l' b) (owns : p.Owners)
    (records : l'.Records limits fun a => a.Sound ∧ a.Paced) :
    (∃ r, (l'.submit (p.signed a.owner signer y)).2 = .ok r) ↔
      p.Gate l.setting signer a ∧ 0 < y.toNat ∧
        ∀ bound ∈ p.bounds l signer a, bound.Admits (x.toNat + y.toNat) := by
  have setting : l'.setting = l.setting := by rw [Ledger.setting, h.frame.limits, h.frame.now]; rfl
  rw [records.pays_iff h.unarmed, setting, ← h.admits_iff owns]
  constructor
  · rintro ⟨c, found, gate, positive, admits⟩
    obtain rfl : b = c := Option.some.inj (h.written.symm.trans found)
    exact ⟨h.posts.gate_iff.1 gate, positive, admits⟩
  · rintro ⟨gate, positive, admits⟩
    exact ⟨b, h.written, h.posts.gate_iff.2 gate, positive, admits⟩

/-- Two payments, one after the other, are one. -/
theorem trans (first : Paid p signer x l a l' b) (second : Paid p signer y l' b l'' d)
    (sum : z.toNat = x.toNat + y.toNat) : Paid p signer z l a l'' d := by
  have terms := first.posts.terms
  constructor
  · exact first.found
  · rw [← terms.owner]
    exact second.written
  · rw [sum]
    exact first.posts.trans second.posts
  · have frame : l'.Frame l'' a.owner := terms.owner ▸ second.frame
    exact first.frame.trans frame
  · intro k token
    have one := first.entries k token
    have two := second.entries k token
    rw [terms.owner, terms.mint] at two
    rw [Custody.entry_add sum, Custody.entry_add sum]
    omega
  · exact second.unarmed

/-- Records and balances after a payment leave no choice. -/
theorem unique (one : Paid p signer x l a l' b) (other : Paid p signer x l a l'' d) :
    SameBooks l' l'' where
  limits := other.frame.limits.trans one.frame.limits.symm
  now := other.frame.now.trans one.frame.now.symm
  escrows := by
    refine Std.ExtTreeMap.ext_getElem? fun owner => ?_
    show l''.escrow? owner = l'.escrow? owner
    by_cases here : owner = a.owner
    · rw [here, one.written, other.written, one.posts.unique other.posts]
    · rw [one.frame.others owner here, other.frame.others owner here]
  balance k token := by
    have left := one.entries k token
    have right := other.entries k token
    exact Amount.toNat_inj.1 (by omega)
  armed := other.unarmed.trans one.unarmed.symm

end Paid

/-! ### Two payments -/

section
variable (owner signer) (records : l.Records limits fun a => a.Sound ∧ a.Paced)
variable (unarmed : l.custody.armed = none) (owns : p.Owners)
include records unarmed owns

/-- What is accepted in two parts is accepted as a whole, and the other way round. -/
theorem pays_parts_iff (first : 0 < x.toNat) (second : 0 < y.toNat)
    (sum : z.toNat = x.toNat + y.toNat) :
    (∃ r, (l.submit (p.signed owner signer x)).2 = .ok r) ∧
        (∃ r, ((l.submit (p.signed owner signer x)).1.submit (p.signed owner signer y)).2 = .ok r) ↔
      ∃ r, (l.submit (p.signed owner signer z)).2 = .ok r := by
  have records' := records.step (s := .submit (p.signed owner signer x))
    (Account.sound_paced_invariant limits) trivial
  constructor
  · rintro ⟨now, later⟩
    obtain ⟨a, found, -⟩ := (records.pays_iff unarmed).1 now
    obtain rfl : a.owner = owner := records.filed found
    obtain ⟨b, paid⟩ := records.paid unarmed owns found now
    obtain ⟨gate, -, admits⟩ := (paid.pays_iff owns records').1 later
    exact (records.pays_iff unarmed).2 ⟨a, found, gate, by omega, sum ▸ admits⟩
  · intro whole
    obtain ⟨a, found, gate, -, admits⟩ := (records.pays_iff unarmed).1 whole
    obtain rfl : a.owner = owner := records.filed found
    -- Bounds that admit the whole admit the first part.
    have fewer : ∀ bound ∈ p.bounds l signer a, bound.Admits x.toNat := by
      intro bound hb
      have fits := admits bound hb
      unfold Bound.Admits at *
      omega
    have now := (records.pays_iff unarmed).2 ⟨a, found, gate, first, fewer⟩
    obtain ⟨b, paid⟩ := records.paid unarmed owns found now
    exact ⟨now, (paid.pays_iff owns records').2 ⟨gate, second, sum ▸ admits⟩⟩

theorem sameBooks_of_parts (sum : z.toNat = x.toNat + y.toNat)
    (now : ∃ r, (l.submit (p.signed owner signer x)).2 = .ok r)
    (later : ∃ r,
      ((l.submit (p.signed owner signer x)).1.submit (p.signed owner signer y)).2 = .ok r)
    (whole : ∃ r, (l.submit (p.signed owner signer z)).2 = .ok r) :
    SameBooks ((l.submit (p.signed owner signer x)).1.submit (p.signed owner signer y)).1
      (l.submit (p.signed owner signer z)).1 := by
  have records' := records.step (s := .submit (p.signed owner signer x))
    (Account.sound_paced_invariant limits) trivial
  obtain ⟨a, found, -⟩ := (records.pays_iff unarmed).1 now
  obtain rfl : a.owner = owner := records.filed found
  obtain ⟨b, paid⟩ := records.paid unarmed owns found now
  obtain ⟨d, paid'⟩ := records'.paid paid.unarmed owns paid.written later
  obtain ⟨e, atOnce⟩ := records.paid unarmed owns found whole
  exact (paid.trans paid' sum).unique atOnce

end

/-- **Splitting makes no difference.**  In any reachable ledger without an armed failure, a
deposit or a withdrawal of either kind is accepted in two parts, one right after the other,
just if it is accepted as a whole; and then both ways end with the same records and the same
balances. -/
theorem splitting_makes_no_difference {limits : Limits} {retention : Nat} {steps : List Step}
    {l : Ledger} (reached : (Ledger.fresh limits retention).run steps = l)
    (unarmed : l.custody.armed = none) {p : Payment} (owns : p.Owners) (owner signer : Identity)
    {x y z : Amount} (first : 0 < x.toNat) (second : 0 < y.toNat)
    (sum : z.toNat = x.toNat + y.toNat) :
    let part := (l.submit (p.signed owner signer x)).1
    let parts := (part.submit (p.signed owner signer y)).1
    let whole := (l.submit (p.signed owner signer z)).1
    ((∃ r, (l.submit (p.signed owner signer x)).2 = .ok r) ∧
          (∃ r, (part.submit (p.signed owner signer y)).2 = .ok r) ↔
        ∃ r, (l.submit (p.signed owner signer z)).2 = .ok r) ∧
      ((∃ r, (l.submit (p.signed owner signer z)).2 = .ok r) → parts.SameBooks whole) := by
  intro part parts whole
  have records : l.Records limits fun a => a.Sound ∧ a.Paced := by
    rw [← reached]
    exact (Records.run (Account.sound_paced_invariant limits) retention steps).1
  have accepts_iff := pays_parts_iff owner signer records unarmed owns first second sum
  refine ⟨accepts_iff, fun accepted => ?_⟩
  obtain ⟨now, later⟩ := accepts_iff.2 accepted
  exact sameBooks_of_parts owner signer records unarmed owns sum now later accepted

/-- A run after which an escrow with a ceiling of 60 units can take 10 more. -/
def nearlyFull : List Step :=
  [.issue (.wallet (.ofSeed 1)) .usdc ⟨100⟩,
    .submit ⟨.ofSeed 1, .create .usdc ⟨60⟩ .unlimited⟩,
    .submit ⟨.ofSeed 1, .act (.ofSeed 1) (.deposit ⟨50⟩)⟩]

/-- It takes them in two parts, and one unit more neither at once nor in two parts. -/
theorem nearlyFull_split :
    let l := (Ledger.fresh .standard 8).run nearlyFull
    let paid := fun n => Payment.deposit.signed (.ofSeed 1) (.ofSeed 1) n
    let part := (l.submit (paid ⟨4⟩)).1
    l.custody.armed = none ∧ (∃ r, (part.submit (paid ⟨6⟩)).2 = .ok r) ∧
      (part.submit (paid ⟨6⟩)).1.SameBooks (l.submit (paid ⟨10⟩)).1 ∧
      (¬ ∃ r, (l.submit (paid ⟨11⟩)).2 = .ok r) ∧
      ¬ ∃ r, (part.submit (paid ⟨7⟩)).2 = .ok r := by
  intro l paid part
  have unarmed : l.custody.armed = none := by decide +kernel
  have now : ∃ r, (l.submit (paid ⟨4⟩)).2 = .ok r := ⟨⟨3, .ofSeed 1, ⟨54⟩, 0⟩, by decide +kernel⟩
  have whole : ∃ r, (l.submit (paid ⟨10⟩)).2 = .ok r :=
    ⟨⟨3, .ofSeed 1, ⟨60⟩, 0⟩, by decide +kernel⟩
  have tooMuch : ¬ ∃ r, (l.submit (paid ⟨11⟩)).2 = .ok r := by
    have refused : (l.submit (paid ⟨11⟩)).2 = .error (.overCap .balance ⟨11⟩ ⟨60⟩) := by
      decide +kernel
    rintro ⟨r, accepted⟩
    cases refused.symm.trans accepted
  obtain ⟨accepts, books⟩ := splitting_makes_no_difference rfl unarmed (p := .deposit) (.inl rfl)
    (.ofSeed 1) (.ofSeed 1) (x := ⟨4⟩) (y := ⟨6⟩) (z := ⟨10⟩) (by decide) (by decide) (by decide)
  obtain ⟨accepts', -⟩ := splitting_makes_no_difference rfl unarmed (p := .deposit) (.inl rfl)
    (.ofSeed 1) (.ofSeed 1) (x := ⟨4⟩) (y := ⟨7⟩) (z := ⟨11⟩) (by decide) (by decide) (by decide)
  refine ⟨unarmed, (accepts.2 whole).2, books whole, tooMuch, fun later => ?_⟩
  exact tooMuch (accepts'.1 ⟨now, later⟩)

end Ledger

end DelegatedEscrow
