/-
DelegatedEscrow/Proofs/Routing.lean

An instruction says on its face who has to sign it and which nonce it presents.  Whoever
hands instructions on relies on that before anything is carried out: to ask the right
person for a signature, and to put spendings in order.  The rules do not look at these
two answers.  Each of them has guards of its own, and an instruction that is accepted has
passed them; here it is shown that the guards ask for the same.

    role   owner          the signer owns the record
           authority k    the signer is in the slot of k
    nonce  n              the nonce on record is n, and n + 1 afterwards
           none           no nonce on record moves
-/
import DelegatedEscrow.Proofs.Nonces
import DelegatedEscrow.Proofs.Control

namespace DelegatedEscrow

open Account

namespace Ledger

variable {l l' : Ledger} {i : Signed} {r : Receipt} {a : Account} {t : Transition}
variable {limits : Limits} {P : Account → Prop} {owner : Identity}

/-- The signer of an instruction that can be staged holds the role that it names. -/
theorem heldBy_of_staged (staged : l.stage i = .ok t) (found : l.escrow? i.target = some a) :
    a.HeldBy i.signer i.instruction.role := by
  obtain ⟨signer, ⟨mint, ceiling, caps⟩ | ⟨owner, action⟩⟩ := i
  · -- Nothing is opened where there is a record.
    obtain ⟨absent, -⟩ := stage_create_eq_ok_iff.1 staged
    cases absent.symm.trans found
  · obtain ⟨b, found', acted⟩ := stage_act_eq_ok_iff.1 staged
    obtain rfl : a = b := Option.some.inj (found.symm.trans found')
    exact (Action.stage_control acted).signed

/-- Only the opening of an escrow needs no record. -/
theorem found_of_staged (staged : l.stage i = .ok t) :
    (∃ a, l.escrow? i.target = some a) ∨ i.signer = i.target ∧ i.instruction.role = .owner := by
  obtain ⟨signer, ⟨mint, ceiling, caps⟩ | ⟨owner, action⟩⟩ := i
  · exact .inr ⟨rfl, rfl⟩
  · obtain ⟨a, found, -⟩ := stage_act_eq_ok_iff.1 staged
    exact .inl ⟨a, found⟩

/-- An instruction that names the owner leaves a record that its signer owns. -/
theorem Records.owner_of_accepted (h : l.Records limits P)
    (accepted : l.submit i = (l', .ok r)) (role : i.instruction.role = .owner) :
    ∃ b, l'.escrow? i.target = some b ∧ b.owner = i.signer := by
  obtain ⟨t, c, staged, -, rfl, -⟩ := submit_eq_ok accepted
  have target := h.target staged
  refine ⟨t.account, by rw [escrow?_written, if_pos target], target.trans ?_⟩
  rcases found_of_staged staged with ⟨a, found⟩ | ⟨opener, -⟩
  · have owns := heldBy_of_staged staged found
    rw [role] at owns
    exact (h.filed found).symm.trans owns.symm
  · exact opener.symm

/-- An instruction that names an authority was signed by whoever is in its slot. -/
theorem delegate_of_accepted {k : Authority} (accepted : l.submit i = (l', .ok r))
    (role : i.instruction.role = .authority k) :
    ∃ a, l.escrow? i.target = some a ∧ (a.slot k).delegate? = some i.signer := by
  obtain ⟨t, c, staged, -, -, -⟩ := submit_eq_ok accepted
  rcases found_of_staged staged with ⟨a, found⟩ | ⟨-, own⟩
  · have held := heldBy_of_staged staged found
    rw [role] at held
    exact ⟨a, found, held⟩
  · cases own.symm.trans role

/-- The moment at which an instruction is accepted, seen from one escrow. -/
theorem Records.moment_of_accepted (h : l.Records limits P)
    (accepted : l.submit i = (l', .ok r)) (owner : Identity) :
    ∃ m : Moment, m.before = l ∧ m.after = l' ∧ m.spent? owner = i.spends? owner ∧
      RecordStep m owner := by
  refine ⟨⟨l, .submit i⟩, rfl, ?_, spent?_of_accepted (Moment.accepted?_of_ok accepted), ?_⟩
  · show (l.submit i).1 = l'
    rw [accepted]
  · have before : (⟨l, .submit i⟩ : Moment).before.Records limits P := h
    exact before.recordStep trivial owner

/-- A nonce that is presented is the one on record, and the record moves on to the next. -/
theorem Records.nonce_of_accepted (h : l.Records limits P)
    (accepted : l.submit i = (l', .ok r)) {n : Nonce} (presents : i.instruction.nonce? = some n) :
    ∃ a b, l.escrow? i.target = some a ∧ l'.escrow? i.target = some b ∧ a.nonce = n ∧
      b.nonce.toNat = n.toNat + 1 := by
  obtain ⟨m, rfl, rfl, spent, here⟩ := h.moment_of_accepted accepted i.target
  rw [Signed.spends?, if_pos rfl, presents] at spent
  rcases e : m.before.escrow? i.target with - | a
  · -- Where there is no record nothing is spent.
    obtain ⟨nothing, -⟩ := nonce_step_absent here e
    cases nothing.symm.trans spent
  · obtain ⟨b, after, advances⟩ := nonce_step here e
    rw [spent] at advances
    obtain ⟨rfl, next⟩ := advances
    exact ⟨a, b, rfl, after, rfl, next⟩

/-- No other nonce moves. -/
theorem Records.nonce_kept_of_accepted (h : l.Records limits P)
    (accepted : l.submit i = (l', .ok r)) (found : l.escrow? owner = some a)
    (elsewhere : i.instruction.nonce? = none ∨ i.target ≠ owner) :
    ∃ b, l'.escrow? owner = some b ∧ b.nonce = a.nonce := by
  obtain ⟨m, rfl, rfl, spent, here⟩ := h.moment_of_accepted accepted owner
  have nothing : i.spends? owner = none := by
    rcases elsewhere with silent | other
    · rw [Signed.spends?, silent, ite_self]
    · exact if_neg other
  obtain ⟨b, after, advances⟩ := nonce_step here found
  rw [spent, nothing] at advances
  exact ⟨b, after, advances⟩

/-- A record that is new has spent nothing. -/
theorem Records.nonce_of_opened (h : l.Records limits P)
    (accepted : l.submit i = (l', .ok r)) (absent : l.escrow? owner = none)
    (found : l'.escrow? owner = some a) : a.nonce = 0 := by
  obtain ⟨m, rfl, rfl, -, here⟩ := h.moment_of_accepted accepted owner
  obtain ⟨-, unspent⟩ := nonce_step_absent here absent
  rw [nonceCount_of_some found] at unspent
  exact UInt64.toNat_inj.1 unspent

/-- **Role and nonce.**  Whenever an instruction is accepted, its signer has the role that
it names: the owner owns the record, the one before and the one afterwards, and a delegate
is in the slot before.  A nonce that it presents is the one on record, which goes up by
one; no other nonce on record moves, and a new record starts at zero.  An instruction about
an escrow whose signer does not have that role is refused. -/
theorem role_and_nonce_as_told (limits : Limits) (retention : Nat) (steps : List Step) :
    let l := (Ledger.fresh limits retention).run steps
    (∀ i l' r, l.submit i = (l', .ok r) →
        (i.instruction.role = .owner →
          (∃ b, l'.escrow? i.target = some b ∧ b.owner = i.signer) ∧
            ∀ a, l.escrow? i.target = some a → a.owner = i.signer) ∧
        (∀ k, i.instruction.role = .authority k →
          ∃ a, l.escrow? i.target = some a ∧ (a.slot k).delegate? = some i.signer) ∧
        (∀ n, i.instruction.nonce? = some n →
          ∃ a b, l.escrow? i.target = some a ∧ l'.escrow? i.target = some b ∧ a.nonce = n ∧
            b.nonce.toNat = n.toNat + 1) ∧
        (∀ owner a, l.escrow? owner = some a →
          i.instruction.nonce? = none ∨ i.target ≠ owner →
            ∃ b, l'.escrow? owner = some b ∧ b.nonce = a.nonce) ∧
        ∀ owner b, l.escrow? owner = none → l'.escrow? owner = some b → b.nonce = 0) ∧
      ∀ i a, l.escrow? i.target = some a →
        (match i.instruction.role with
          | .owner => i.signer ≠ a.owner
          | .authority k => (a.slot k).delegate? ≠ some i.signer) →
        ∃ f, (l.submit i).2 = .error f := by
  intro l
  have records : l.Records limits fun _ => True :=
    (Records.run (Account.invariant_true limits) retention steps).1
  refine ⟨fun i l' r accepted => ⟨fun role => ⟨?_, ?_⟩, ?_, ?_, ?_, ?_⟩, ?_⟩
  · exact records.owner_of_accepted accepted role
  · intro a found
    obtain ⟨t, c, staged, -, -, -⟩ := submit_eq_ok accepted
    have owns := heldBy_of_staged staged found
    rw [role] at owns
    exact owns.symm
  · intro k role
    exact delegate_of_accepted accepted role
  · intro n presents
    exact records.nonce_of_accepted accepted presents
  · intro owner a found elsewhere
    exact records.nonce_kept_of_accepted accepted found elsewhere
  · intro owner b absent found
    exact records.nonce_of_opened accepted absent found
  · intro i a found stranger
    rcases e : (l.submit i).2 with f | r
    · exact ⟨f, rfl⟩
    · obtain ⟨t, staged⟩ := stage_of_submit_ok e
      have held := heldBy_of_staged staged found
      cases role : i.instruction.role with
      | owner =>
        rw [role] at held stranger
        exact absurd held stranger
      | authority k =>
        rw [role] at held stranger
        exact absurd held stranger

end Ledger

end DelegatedEscrow
