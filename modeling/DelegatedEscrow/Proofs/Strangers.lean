/-
DelegatedEscrow/Proofs/Strangers.lean

What a stranger learns.  Somebody who signs for an escrow without the role that is asked
for is refused, and the fault tells no more than the guards that come before the question
of the signer.  These are few, and they ask for the same on every path of a role:

    to the owner's role      is there an escrow, and is it closed
    to a delegate's role     is there an escrow, its status, and is the slot taken

The answer is therefore a function of what is listed here (`ownersDoor`, `delegatesDoor`).
Balances, limits, nonces, timers and custody are not, and neither is the amount or
anything else that the stranger asks for: on two ledgers that look the same in this way,
however different they are otherwise, a stranger gets the same answer.
-/
import DelegatedEscrow.Proofs.Closure

namespace DelegatedEscrow

/-! ### Rules that meet a stranger -/

namespace Account

variable {a : Account} {s : Setting} {signer : Identity} {k : Authority} {amount : Amount}
variable {nonce : Nonce} {α : Type}

/-- A rule that begins with the guards of an open escrow's owner goes no further. -/
theorem owner_bind_of_stranger (opened : a.status ≠ .closed) (stranger : signer ≠ a.owner)
    (rest : Unit → Except Fault α) :
    (do a.requireOpen; a.requireOwner signer >>= rest) =
      .error (.unauthorized signer .owner) := by
  apply bind_eq_error_iff.2
  refine .inr ⟨(), requireOpen_eq_ok_iff.2 opened, ?_⟩
  exact bind_eq_error_iff.2 (.inl (require_eq_error_iff.2 ⟨stranger, rfl⟩))

/-- The fault that the guards of a delegate's rule have for a stranger: a pause wins over an
empty slot, and an empty slot over the wrong signer. -/
def delegatesDoor (signer : Identity) (k : Authority) : Status → Bool → Fault
  | .closed, _ => .closed
  | .paused, _ => .paused
  | .active, false => .slotEmpty k
  | .active, true => .unauthorized signer (.authority k)

/-- The slot of an authority is taken. -/
def hasDelegate (a : Account) (k : Authority) : Bool := (a.slot k).delegate?.isSome

theorem requireSpendable_of_stranger (stranger : ¬ a.HeldBy signer (.authority k)) :
    a.requireSpendable s signer k amount nonce =
      .error (delegatesDoor signer k a.status (a.hasDelegate k)) := by
  apply bind_eq_error_iff.2
  rcases status : a.status with - | - | -
  · -- An active escrow goes on to ask who is in the slot.
    refine .inr ⟨(), requireActive_eq_ok_iff.2 status, bind_eq_error_iff.2 (.inl ?_)⟩
    apply bind_eq_error_iff.2
    rw [hasDelegate]
    rcases taken : (a.slot k).delegate? with - | d
    · exact .inl (demand_eq_error_iff.2 ⟨rfl, rfl⟩)
    · have other : signer ≠ d := by
        rintro rfl
        exact stranger taken
      exact .inr ⟨d, rfl, require_eq_error_iff.2 ⟨other, rfl⟩⟩
  · have opened : a.requireOpen = .ok () := requireOpen_eq_ok_iff.2 (by simp [status])
    have paused : ¬ a.status ≠ .paused := not_not_intro status
    exact .inl (bind_eq_error_iff.2 (.inr ⟨(), opened, require_eq_error_iff.2 ⟨paused, rfl⟩⟩))
  · exact .inl (open_bind_of_closed status _)

end Account

namespace Action

open Account

variable {a : Account} {signer : Identity} {action : Action} {k : Authority}

theorem stage_of_stranger_to_owner (owners : action.role = .owner) (opened : a.status ≠ .closed)
    (stranger : signer ≠ a.owner) (s : Setting) :
    action.stage s signer a = .error (.unauthorized signer .owner) := by
  cases action with
  | collectFee amount nonce => cases owners
  | trade amount nonce deadline => cases owners
  | _ => exact owner_bind_of_stranger opened stranger _

theorem stage_of_stranger_to_delegate (delegates : action.role = .authority k)
    (stranger : ¬ a.HeldBy signer (.authority k)) (s : Setting) :
    action.stage s signer a = .error (delegatesDoor signer k a.status (a.hasDelegate k)) := by
  cases action with
  | collectFee amount nonce =>
    cases delegates
    exact bind_eq_error_iff.2 (.inl (requireSpendable_of_stranger stranger))
  | trade amount nonce deadline =>
    cases delegates
    exact bind_eq_error_iff.2 (.inl (requireSpendable_of_stranger stranger))
  | _ => cases delegates

end Action

/-! ### Ledgers that meet a stranger -/

namespace Ledger

variable {l l' : Ledger} {owner signer : Identity} {action : Action} {k : Authority}
variable {limits : Limits} {P : Account → Prop}

/-- Whether the escrow of an owner is closed, if there is one. -/
def closed? (l : Ledger) (owner : Identity) : Option Bool :=
  (l.escrow? owner).map fun a => decide (a.status = .closed)

/-- The status of the escrow of an owner, and whether the slot of an authority is taken, if
there is one. -/
def front? (l : Ledger) (owner : Identity) (k : Authority) : Option (Status × Bool) :=
  (l.escrow? owner).map fun a => (a.status, a.hasDelegate k)

/-- The fault for a stranger to the owner's role. -/
def ownersDoor (owner signer : Identity) : Option Bool → Fault
  | none => .notFound owner
  | some true => .closed
  | some false => .unauthorized signer .owner

theorem submit_of_absent (absent : l.escrow? owner = none) :
    l.submit ⟨signer, .act owner action⟩ = (l, .error (.notFound owner)) :=
  submit_of_unstaged (bind_eq_error_iff.2 (.inl (demand_eq_error_iff.2 ⟨absent, rfl⟩)))

theorem submit_of_stage_error {a : Account} {f : Fault} (found : l.escrow? owner = some a)
    (refused : action.stage l.setting signer a = .error f) :
    l.submit ⟨signer, .act owner action⟩ = (l, .error f) :=
  submit_of_unstaged (bind_eq_error_iff.2 (.inr ⟨a, demand_eq_ok_iff.2 found, refused⟩))

/-- The answer to a stranger to the owner's role depends on `closed?` alone. -/
theorem Records.submit_of_stranger_to_owner (h : l.Records limits P) (stranger : signer ≠ owner)
    (owners : action.role = .owner) :
    l.submit ⟨signer, .act owner action⟩ =
      (l, .error (ownersDoor owner signer (l.closed? owner))) := by
  rcases found : l.escrow? owner with - | a
  · rw [closed?, found]
    exact submit_of_absent found
  · -- Records are filed under their owners, so the stranger does not own this one.
    have other : signer ≠ a.owner := by
      rw [h.filed found]
      exact stranger
    rw [closed?, found]
    apply submit_of_stage_error found
    by_cases closed : a.status = .closed
    · simpa [closed, ownersDoor] using Action.stage_of_closed closed l.setting signer action
    · simpa [closed, ownersDoor] using
        Action.stage_of_stranger_to_owner owners closed other l.setting

/-- The answer to a stranger to a delegate's role depends on `front?` alone. -/
theorem submit_of_stranger_to_delegate
    (stranger : ∀ a, l.escrow? owner = some a → ¬ a.HeldBy signer (.authority k))
    (delegates : action.role = .authority k) :
    l.submit ⟨signer, .act owner action⟩ =
      (l, .error ((l.front? owner k).elim (.notFound owner) fun (status, taken) =>
        Account.delegatesDoor signer k status taken)) := by
  rcases found : l.escrow? owner with - | a
  · rw [front?, found]
    exact submit_of_absent found
  · rw [front?, found]
    exact submit_of_stage_error found
      (Action.stage_of_stranger_to_delegate delegates (stranger a found) l.setting)

/-- **Strangers learn nothing.**  Take two reachable ledgers, with whatever limits, clocks,
balances and custody, and an escrow that they may both have.

Somebody who does not own it gets the same answer to anything that only the owner may
ask, if the ledgers agree on whether there is an escrow and whether it is closed.  Somebody
who is not the delegate of an authority on either ledger gets the same answer to anything
that only its delegate may ask, if they agree on whether there is an escrow, on its status
and on whether the slot is taken.  The answer is a refusal, and the whole ledger stays as it
was. -/
theorem strangers_learn_nothing {limits limits' : Limits} {retention retention' : Nat}
    {steps steps' : List Step} {l l' : Ledger}
    (reached : (Ledger.fresh limits retention).run steps = l)
    (reached' : (Ledger.fresh limits' retention').run steps' = l') (owner signer : Identity) :
    (signer ≠ owner → l.closed? owner = l'.closed? owner →
      ∀ asked asked' : Action, asked.role = .owner → asked'.role = .owner →
        ∃ f, l.submit ⟨signer, .act owner asked⟩ = (l, .error f) ∧
          l'.submit ⟨signer, .act owner asked'⟩ = (l', .error f)) ∧
      ∀ k, (∀ a, l.escrow? owner = some a → ¬ a.HeldBy signer (.authority k)) →
        (∀ a, l'.escrow? owner = some a → ¬ a.HeldBy signer (.authority k)) →
        l.front? owner k = l'.front? owner k →
          ∀ asked asked' : Action, asked.role = .authority k → asked'.role = .authority k →
            ∃ f, l.submit ⟨signer, .act owner asked⟩ = (l, .error f) ∧
              l'.submit ⟨signer, .act owner asked'⟩ = (l', .error f) := by
  have records : l.Records limits fun _ => True := by
    rw [← reached]
    exact (Records.run (Account.invariant_true limits) retention steps).1
  have records' : l'.Records limits' fun _ => True := by
    rw [← reached']
    exact (Records.run (Account.invariant_true limits') retention' steps').1
  constructor
  · intro stranger alike asked asked' owners owners'
    refine ⟨_, records.submit_of_stranger_to_owner stranger owners, ?_⟩
    rw [alike]
    exact records'.submit_of_stranger_to_owner stranger owners'
  · intro k stranger stranger' alike asked asked' delegates delegates'
    refine ⟨_, submit_of_stranger_to_delegate stranger delegates, ?_⟩
    rw [alike]
    exact submit_of_stranger_to_delegate stranger' delegates'

/-- A run to an escrow with 50 units left and a delegate who has spent, while the next
transfer is bound to fail. -/
def villa : List Step :=
  [.issue (.wallet (.ofSeed 1)) .usdc ⟨100⟩,
    .submit ⟨.ofSeed 1, .create .usdc 0 .unlimited⟩,
    .submit ⟨.ofSeed 1, .act (.ofSeed 1) (.deposit ⟨60⟩)⟩,
    .submit ⟨.ofSeed 1, .act (.ofSeed 1) (.delegate .platform (.ofSeed 100))⟩,
    .setTime ⟨300⟩,
    .submit ⟨.ofSeed 100, .act (.ofSeed 1) (.collectFee ⟨10⟩ 0)⟩,
    .arm "offline"]

/-- A run to an empty escrow in another token, with another delegate. -/
def cottage : List Step :=
  [.submit ⟨.ofSeed 1, .create ⟨.ofSeed 7, 6⟩ ⟨5⟩ ⟨some ⟨3⟩, none⟩⟩,
    .submit ⟨.ofSeed 1, .act (.ofSeed 1) (.delegate .platform (.ofSeed 101))⟩]

/-- From outside the two look alike: to a withdrawal of 50 and a deposit of nothing, and to
the next fee and one that is neither due nor covered. -/
theorem villa_cottage_alike :
    let l := (Ledger.fresh .standard 8).run villa
    let l' := (Ledger.fresh .standard 1).run cottage
    l.escrow? (.ofSeed 1) ≠ l'.escrow? (.ofSeed 1) ∧
      (∃ f, l.submit ⟨.ofSeed 9, .act (.ofSeed 1) (.withdraw ⟨50⟩)⟩ = (l, .error f) ∧
        l'.submit ⟨.ofSeed 9, .act (.ofSeed 1) (.deposit ⟨0⟩)⟩ = (l', .error f)) ∧
      ∃ f, l.submit ⟨.ofSeed 9, .act (.ofSeed 1) (.collectFee ⟨10⟩ 1)⟩ = (l, .error f) ∧
        l'.submit ⟨.ofSeed 9, .act (.ofSeed 1) (.collectFee ⟨10⟩ 7)⟩ = (l', .error f) := by
  intro l l'
  have inVilla : (l.escrow? (.ofSeed 1)).bind (fun a => (a.slot .platform).delegate?) =
      some (.ofSeed 100) := by
    decide +kernel
  have inCottage : (l'.escrow? (.ofSeed 1)).bind (fun a => (a.slot .platform).delegate?) =
      some (.ofSeed 101) := by
    decide +kernel
  have toVilla : (Ledger.fresh .standard 8).run villa = l := rfl
  have toCottage : (Ledger.fresh .standard 1).run cottage = l' := rfl
  obtain ⟨owners, delegates⟩ := strangers_learn_nothing toVilla toCottage (.ofSeed 1) (.ofSeed 9)
  refine ⟨by decide +kernel, ?_, ?_⟩
  · exact owners (by decide) (by decide +kernel) _ _ rfl rfl
  · refine delegates .platform (fun a found held => ?_) (fun a found held => ?_)
      (by decide +kernel) _ _ rfl rfl
    · rw [found] at inVilla
      exact absurd (held.symm.trans inVilla) (by decide)
    · rw [found] at inCottage
      exact absurd (held.symm.trans inCottage) (by decide)

end Ledger

end DelegatedEscrow
