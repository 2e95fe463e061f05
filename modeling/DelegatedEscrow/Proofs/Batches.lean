/-
DelegatedEscrow/Proofs/Batches.lean

A batch is its instructions, one by one.  `Carries l is rs l'` says that the instructions
`is` are accepted one after another, with the receipts `rs`, and lead from `l` to `l'`;
there is nothing in it of a batch.  A batch ends in one of two ways (`submitAll_cases`):

* it goes through, and its instructions are carried out in this sense;
* it stops at position `n`, where its first `n` instructions have been carried out and
  the next one is refused.

So batches compose.  What follows a batch that goes through is carried out from where
that has led, with receipts and positions counted on; what follows an instruction that
is refused is never looked at.
-/
import DelegatedEscrow.Proofs.Refusal
import DelegatedEscrow.Proofs.Trace

namespace DelegatedEscrow

namespace Ledger

/-- Instructions are accepted one after another, each with a receipt. -/
inductive Carries : Ledger → List Signed → List Receipt → Ledger → Prop
  | nil {l} : Carries l [] [] l
  | cons {l l' l'' i is r rs} (accepted : l.submit i = (l', .ok r))
      (rest : Carries l' is rs l'') : Carries l (i :: is) (r :: rs) l''

variable {l l' l'' : Ledger} {i : Signed} {is js : List Signed} {r : Receipt}
variable {rs more : List Receipt} {n : Nat} {f : Fault}

/-! ### One instruction in front -/

theorem submitAll_cons_eq_ok (accepted : l.submit i = (l', .ok r))
    (rest : l'.submitAll is = (l'', .ok rs)) :
    l.submitAll (i :: is) = (l'', .ok (r :: rs)) := by
  rw [submitAll, accepted]
  dsimp only
  rw [rest]

theorem submitAll_cons_eq_error (accepted : l.submit i = (l', .ok r))
    (rest : l'.submitAll is = (l'', .error (n, f))) :
    l.submitAll (i :: is) = (l'', .error (n + 1, f)) := by
  rw [submitAll, accepted]
  dsimp only
  rw [rest]

/-! ### What has been carried out -/

namespace Carries

theorem length_eq (h : l.Carries is rs l') : rs.length = is.length := by
  induction h with
  | nil => rfl
  | cons _ _ ih => rw [List.length_cons, List.length_cons, ih]

/-- A batch goes on from where its first part has led, and goes through if the rest does. -/
theorem append_ok (h : l.Carries is rs l') (rest : l'.submitAll js = (l'', .ok more)) :
    l.submitAll (is ++ js) = (l'', .ok (rs ++ more)) := by
  induction h with
  | nil => exact rest
  | cons accepted _ ih => exact submitAll_cons_eq_ok accepted (ih rest)

/-- If the rest stops, its position counts from the front of the whole batch. -/
theorem append_error (h : l.Carries is rs l') (rest : l'.submitAll js = (l'', .error (n, f))) :
    l.submitAll (is ++ js) = (l'', .error (is.length + n, f)) := by
  induction h with
  | nil => simpa using rest
  | cons accepted _ ih =>
    rw [List.cons_append, submitAll_cons_eq_error accepted (ih rest), List.length_cons,
      Nat.add_right_comm]

/-- A batch stops at the first instruction that is refused, whatever comes after it. -/
theorem stops (h : l.Carries is rs l') (refused : l'.submit i = (l'', .error f))
    (others : List Signed) : l.submitAll (is ++ i :: others) = (l'', .error (is.length, f)) :=
  h.append_error (submitAll_cons_of_error refused)

/-- As long as the ids last, receipts are numbered consecutively. -/
theorem numbered (h : l.Carries is rs l')
    (room : l.journal.nextId.toNat + is.length < UInt64.size) :
    rs.map (fun r => r.eventId.toNat) = List.range' l.journal.nextId.toNat is.length := by
  induction h with
  | nil => rfl
  | @cons l l' _ i is r rs accepted _ ih =>
    obtain ⟨t, c, -, -, rfl, rfl⟩ := submit_eq_ok accepted
    rw [List.length_cons] at room
    -- The next id is still to be had, so that taking it does not wrap around.
    have next : (l.journal.nextId + 1).toNat = l.journal.nextId.toNat + 1 := by
      rw [UInt64.toNat_add]
      exact Nat.mod_eq_of_lt (by show l.journal.nextId.toNat + 1 < UInt64.size; omega)
    have later : rs.map (fun r => r.eventId.toNat) =
        List.range' (l.journal.nextId + 1).toNat is.length := by
      apply ih
      show (l.journal.nextId + 1).toNat + is.length < UInt64.size
      omega
    rw [List.map_cons, List.length_cons, List.range'_succ, later, next]
    rfl

end Carries

/-! ### How a batch ends -/

theorem submitAll_cases (l : Ledger) (batch : List Signed) :
    (∃ l' rs, l.Carries batch rs l' ∧ l.submitAll batch = (l', .ok rs)) ∨
      ∃ done i rest rs before l' f, batch = done ++ i :: rest ∧ l.Carries done rs before ∧
        before.submit i = (l', .error f) ∧ l.submitAll batch = (l', .error (done.length, f)) := by
  induction batch generalizing l with
  | nil => exact .inl ⟨l, [], .nil, rfl⟩
  | cons i rest ih =>
    rcases e : l.submit i with ⟨next, f | r⟩
    · exact .inr ⟨[], i, rest, [], l, next, f, rfl, .nil, e, submitAll_cons_of_error e⟩
    · -- What is known of the rest gets one more instruction in front.
      rcases ih next with
        ⟨l', rs, carried, whole⟩ | ⟨done, j, others, rs, before, l', f, rfl, carried, refused, stop⟩
      · exact .inl ⟨l', r :: rs, .cons e carried, submitAll_cons_eq_ok e whole⟩
      · exact .inr ⟨i :: done, j, others, r :: rs, before, l', f, rfl, .cons e carried, refused,
          submitAll_cons_eq_error e stop⟩

theorem carries_of_submitAll (h : l.submitAll is = (l', .ok rs)) : l.Carries is rs l' := by
  rcases submitAll_cases l is with
    ⟨_, _, carried, e⟩ | ⟨_, _, _, _, _, _, _, -, -, -, e⟩
  · cases h.symm.trans e
    exact carried
  · cases h.symm.trans e

/-- Position `n` of a batch that stops there, with what lies before it. -/
theorem split_of_submitAll (h : l.submitAll is = (l', .error (n, f))) :
    ∃ done i rest rs before, is = done ++ i :: rest ∧ done.length = n ∧
      l.Carries done rs before ∧ before.submit i = (l', .error f) := by
  rcases submitAll_cases l is with
    ⟨_, _, -, e⟩ | ⟨done, i, rest, rs, before, _, _, split, carried, refused, e⟩
  · cases h.symm.trans e
  · cases h.symm.trans e
    exact ⟨done, i, rest, rs, before, split, rfl, carried, refused⟩

/-- **Batches compose.**  After a batch that goes through, another one does what it would
do on its own, from where the first has led: together they give the receipts of both, or
stop at the position of the second counted on.  After a batch that stops, another one
makes no difference.

A batch that goes through has had its instructions accepted one by one, with a receipt
each; the receipts are numbered consecutively as long as there are ids.  A batch that
stops at position `n` has had its first `n` instructions accepted one by one and the next
one refused; records, balances and journal are those after the first `n`, and whatever
else was in the batch had no say in it. -/
theorem batches_compose (l : Ledger) (xs ys : List Signed) :
    (∀ l₁ rs, l.submitAll xs = (l₁, .ok rs) →
      (∀ l₂ more, l₁.submitAll ys = (l₂, .ok more) →
          l.submitAll (xs ++ ys) = (l₂, .ok (rs ++ more))) ∧
        (∀ l₂ n f, l₁.submitAll ys = (l₂, .error (n, f)) →
          l.submitAll (xs ++ ys) = (l₂, .error (xs.length + n, f))) ∧
        l.Carries xs rs l₁ ∧ rs.length = xs.length ∧
        (l.journal.nextId.toNat + xs.length < UInt64.size →
          rs.map (fun r => r.eventId.toNat) =
            List.range' l.journal.nextId.toNat xs.length)) ∧
      ∀ l₁ n f, l.submitAll xs = (l₁, .error (n, f)) →
        l.submitAll (xs ++ ys) = (l₁, .error (n, f)) ∧
          ∃ done i rest rs before, xs = done ++ i :: rest ∧ done.length = n ∧
            l.Carries done rs before ∧ before.submit i = (l₁, .error f) ∧
            l₁.escrows = before.escrows ∧
            (∀ h token, l₁.custody.balance h token = before.custody.balance h token) ∧
            l₁.journal = before.journal ∧
            ∀ others, l.submitAll (done ++ i :: others) = (l₁, .error (n, f)) := by
  constructor
  · intro l₁ rs whole
    have carried := carries_of_submitAll whole
    exact ⟨fun _ _ => carried.append_ok, fun _ _ _ => carried.append_error, carried,
      carried.length_eq, carried.numbered⟩
  · intro l₁ n f stop
    obtain ⟨done, i, rest, rs, before, rfl, rfl, carried, refused⟩ := split_of_submitAll stop
    obtain ⟨escrows, balances, journal⟩ := kept_of_refused (congrArg Prod.snd refused)
    rw [refused] at escrows balances journal
    have stops := carried.stops refused
    constructor
    · rw [List.append_assoc, List.cons_append]
      exact stops (rest ++ ys)
    · exact ⟨done, i, rest, rs, before, rfl, rfl, carried, refused, escrows, balances, journal,
        stops⟩

/-- A batch that goes through for an owner with 100 tokens. -/
def morning : List Signed :=
  [⟨.ofSeed 1, .create .usdc 0 .unlimited⟩, ⟨.ofSeed 1, .act (.ofSeed 1) (.deposit ⟨60⟩)⟩]

/-- A batch that then takes out more than is left, and does not come to the pause. -/
def evening : List Signed :=
  [⟨.ofSeed 1, .act (.ofSeed 1) (.withdraw ⟨10⟩)⟩, ⟨.ofSeed 1, .act (.ofSeed 1) (.withdraw ⟨60⟩)⟩,
    ⟨.ofSeed 1, .act (.ofSeed 1) .pause⟩]

/-- On its own the second batch stops at position 1; after the two instructions of the first
it stops at position 3, in the same ledger. -/
theorem morning_evening :
    let l := (Ledger.fresh .standard 8).run [.issue (.wallet (.ofSeed 1)) .usdc ⟨100⟩]
    let noon := (l.submitAll morning).1
    let f := Fault.insufficientBalance ⟨60⟩ ⟨50⟩
    (noon.submitAll evening).2 = .error (1, f) ∧
      l.submitAll (morning ++ evening) = ((noon.submitAll evening).1, .error (3, f)) := by
  intro l noon f
  have through : (l.submitAll morning).2 =
      .ok [⟨1, .ofSeed 1, 0, 0⟩, ⟨2, .ofSeed 1, ⟨60⟩, 0⟩] := rfl
  have stop : (noon.submitAll evening).2 = .error (1, f) := rfl
  obtain ⟨goesOn, -⟩ := batches_compose l morning evening
  obtain ⟨-, stops, -⟩ := goesOn _ _ (Prod.ext rfl through)
  exact ⟨stop, stops _ _ _ (Prod.ext rfl stop)⟩

end Ledger

end DelegatedEscrow
