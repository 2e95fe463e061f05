/-
DelegatedEscrow/Proofs/History.lean

What a record remembers of its past.  A rule looks at the record and the clock
and at nothing else; that it nevertheless respects what has happened before is
due to the record, whose slots, status and last pause are traces of the
instructions that have taken effect:

* whoever is in a slot was put there by the owner, at the moment on record, and
  the slot has not been revoked since;
* an active escrow has not been paused, or has been unpaused since;
* a paused escrow was paused at the moment on record, and nothing has paused or
  unpaused it since;
* an escrow that is not closed was never closed.

`Since p q` is the one temporal operator that this takes.  A past grows at its
end, so `Path.grow` is an induction in that direction, with the past at hand;
`Path.remembers` is its result.
-/
import DelegatedEscrow.Proofs.Control
import DelegatedEscrow.Proofs.Records

namespace DelegatedEscrow

/-! ### Since -/

section
variable {α : Type} {p q : α → Prop} {xs : List α} {x : α}

/-- Along a list, oldest first: `p` was true at some point, and `q` at every point
after it. -/
def Since (p q : α → Prop) (xs : List α) : Prop :=
  ∃ before x after, xs = before ++ x :: after ∧ p x ∧ ∀ y ∈ after, q y

theorem since_concat : Since p q (xs ++ [x]) ↔ p x ∨ Since p q xs ∧ q x := by
  constructor
  · rintro ⟨before, y, after, e, here, later⟩
    rcases List.eq_nil_or_concat after with rfl | ⟨after, z, rfl⟩
    · -- The point in question is the last one.
      obtain ⟨-, last⟩ := List.append_inj' e rfl
      obtain rfl : x = y := List.singleton_inj.1 last
      exact .inl here
    · have split : xs ++ [x] = (before ++ y :: after) ++ [z] := by simpa using e
      obtain ⟨rfl, last⟩ := List.append_inj' split rfl
      obtain rfl : x = z := List.singleton_inj.1 last
      refine .inr ⟨⟨before, y, after, rfl, here, fun w hw => ?_⟩, later x (by simp)⟩
      exact later w (by simp [hw])
  · rintro (here | ⟨⟨before, y, after, rfl, here, later⟩, last⟩)
    · exact ⟨xs, x, [], rfl, here, by simp⟩
    · refine ⟨before, y, after ++ [x], by simp, here, fun w hw => ?_⟩
      rcases List.mem_append.1 hw with earlier | now
      · exact later w earlier
      · obtain rfl : w = x := List.mem_singleton.1 now
        exact last

theorem Since.exists_mem (h : Since p q xs) : ∃ x ∈ xs, p x := by
  obtain ⟨before, x, after, rfl, here, -⟩ := h
  exact ⟨x, by simp, here⟩

/-- Not `p` without a later `q`: whenever `p` was true, `q` was true after it. -/
theorem not_since_not_iff :
    ¬ Since p (fun x => ¬ q x) xs ↔
      ∀ before x after, xs = before ++ x :: after → p x → ∃ y ∈ after, q y := by
  simp only [Since, not_exists, not_and, Classical.not_forall, Classical.not_not, exists_prop]

end

namespace Ledger

variable {l l' : Ledger} {past later : List Moment} {m : Moment} {s : Step} {i : Signed}
variable {owner signer : Identity} {action other : Action} {a : Account} {t : Transition}
variable {limits : Limits} {P : Account → Prop}

/-! ### A past that grows -/

/-- What is true of the empty past, and stays true when one more moment has passed,
is true of every past. -/
theorem Path.grow {Q : List Moment → Ledger → Prop} (start : Q [] l)
    (next : ∀ {past l s}, s.Single → Q past l → Q (past ++ [⟨l, s⟩]) (l.step s))
    (p : Path l past l') : Q past l' := by
  -- The induction goes from the front, with what has passed already in `gone`.
  have along : ∀ {l ms l'}, Path l ms l' → ∀ gone, Q gone l → Q (gone ++ ms) l' := by
    intro l ms l' p
    induction p with
    | nil =>
      intro gone h
      simpa using h
    | @cons l l' s ms single _ ih =>
      intro gone h
      have moved := ih (gone ++ [⟨l, s⟩]) (next single h)
      simpa using moved
  exact along p [] start

/-- The same for a past that starts without escrows, where the records that there are
by then may be used. -/
theorem Path.grow_records {retention : Nat} {Q : List Moment → Ledger → Prop}
    (inv : Account.Invariant limits P) (start : Q [] (Ledger.fresh limits retention))
    (next : ∀ {past l s}, s.Single → l.Records limits P → Q past l →
      Q (past ++ [⟨l, s⟩]) (l.step s))
    (p : Path (Ledger.fresh limits retention) past l) : l.Records limits P ∧ Q past l := by
  apply Path.grow (Q := fun past l => l.Records limits P ∧ Q past l) _ _ p
  · exact ⟨Records.fresh limits P retention, start⟩
  · rintro past l s single ⟨records, h⟩
    exact ⟨records.step inv single, next single records h⟩

/-- A path through a moment leads to it, takes its step and goes on from there. -/
theorem Path.split (p : Path l (past ++ m :: later) l') :
    Path l past m.before ∧ m.step.Single ∧ Path m.after later l' := by
  induction past generalizing l with
  | nil =>
    cases p with
    | cons single rest => exact ⟨.nil, single, rest⟩
  | cons n past ih =>
    cases p with
    | cons single rest =>
      obtain ⟨before, here, after⟩ := ih rest
      exact ⟨.cons single before, here, after⟩

/-! ### What takes effect at a moment -/

/-- An action takes effect on the escrow of an owner. -/
def Moment.Performs (m : Moment) (owner : Identity) (action : Action) : Prop :=
  ∃ signer, m.accepted? = some ⟨signer, .act owner action⟩

/-- The owner fills a slot, while the clock reads `now`. -/
def Moment.Arms (m : Moment) (owner : Identity) (k : Authority) (d : Identity)
    (now : Timestamp) : Prop :=
  m.accepted? = some ⟨owner, .act owner (.delegate k d)⟩ ∧ m.before.now = now

/-- The owner pauses the escrow, while the clock reads `now`. -/
def Moment.Pauses (m : Moment) (owner : Identity) (now : Timestamp) : Prop :=
  m.accepted? = some ⟨owner, .act owner .pause⟩ ∧ m.before.now = now

/-- Nothing about the escrow of an owner has taken effect. -/
def Untouched (owner : Identity) (past : List Moment) : Prop :=
  ∀ m ∈ past, ∀ i, m.accepted? = some i → i.target ≠ owner

theorem performs_iff (accepted : m.accepted? = some ⟨signer, .act owner action⟩) :
    m.Performs owner other ↔ other = action := by
  constructor
  · rintro ⟨someone, h⟩
    rw [accepted] at h
    cases h
    rfl
  · rintro rfl
    exact ⟨signer, accepted⟩

theorem not_performs_of_others (others : ∀ i, m.accepted? = some i → i.target ≠ owner) :
    ¬ m.Performs owner action := by
  rintro ⟨someone, h⟩
  exact others _ h rfl

theorem Untouched.not_performs (h : Untouched owner past) (hm : m ∈ past) :
    ¬ m.Performs owner action :=
  not_performs_of_others (h m hm)

/-! ### What a record remembers -/

/-- The record of an escrow is a trace of its past. -/
structure Remembers (past : List Moment) (owner : Identity) (a : Account) : Prop where
  slot : ∀ {k d start}, a.slot k = .delegated d start →
    (d ≠ .unset ∧ d ≠ owner) ∧
      Since (fun m => m.Arms owner k d start) (fun m => ¬ m.Performs owner (.revoke k)) past
  active : a.status = .active →
    ¬ Since (fun m => m.Performs owner .pause) (fun m => ¬ m.Performs owner .unpause) past
  paused : a.status = .paused →
    ∃ start, a.pausedAt = some start ∧
      Since (fun m => m.Pauses owner start)
        (fun m => ¬ m.Performs owner .pause ∧ ¬ m.Performs owner .unpause) past
  isOpen : a.status ≠ .closed → ∀ m ∈ past, ¬ m.Performs owner .close

namespace Remembers

/-- A moment at which nothing about the escrow takes effect adds nothing. -/
theorem kept (h : Remembers past owner a)
    (others : ∀ i, m.accepted? = some i → i.target ≠ owner) :
    Remembers (past ++ [m]) owner a where
  slot taken := by
    obtain ⟨valid, since⟩ := h.slot taken
    exact ⟨valid, since_concat.2 (.inr ⟨since, not_performs_of_others others⟩)⟩
  active active := by
    rw [since_concat]
    rintro (now | ⟨since, -⟩)
    · exact not_performs_of_others others now
    · exact h.active active since
  paused paused := by
    obtain ⟨start, at_start, since⟩ := h.paused paused
    refine ⟨start, at_start, since_concat.2 (.inr ⟨since, ?_⟩)⟩
    exact ⟨not_performs_of_others others, not_performs_of_others others⟩
  isOpen isOpen n hn := by
    rcases List.mem_append.1 hn with earlier | now
    · exact h.isOpen isOpen n earlier
    · obtain rfl : n = m := List.mem_singleton.1 now
      exact not_performs_of_others others

/-- A new escrow has nothing to remember. -/
theorem opened {mint : Mint} {ceiling : Amount} {caps : LifetimeCaps}
    (untouched : Untouched owner past)
    (accepted : m.accepted? = some ⟨owner, .create mint ceiling caps⟩)
    (created : m.before.setting.create owner mint ceiling caps = .ok t) :
    Remembers (past ++ [m]) owner t.account := by
  obtain ⟨-, -, granted, -, rfl⟩ := Setting.create_eq_ok_iff.1 created
  have silent : ∀ n ∈ past ++ [m], ∀ action, ¬ n.Performs owner action := by
    intro n hn action
    rcases List.mem_append.1 hn with earlier | now
    · exact untouched.not_performs earlier
    · obtain rfl : n = m := List.mem_singleton.1 now
      rintro ⟨someone, h⟩
      rw [accepted] at h
      cases h
  refine ⟨fun {k d start} taken => ?_, fun _ since => ?_, nofun, fun _ n hn => silent n hn _⟩
  · cases k <;> cases taken
  · obtain ⟨n, hn, paused⟩ := since.exists_mem
    exact silent n hn _ paused

/-- An action moves the record and its past on together. -/
theorem acted (h : Remembers past owner a) (filed : a.owner = owner)
    (accepted : m.accepted? = some ⟨signer, .act owner action⟩)
    (staged : action.stage m.before.setting signer a = .ok t) :
    Remembers (past ++ [m]) owner t.account := by
  have control := Action.stage_control staged
  refine ⟨fun {k d start} taken => ?_, fun active => ?_, fun paused => ?_, fun isOpen n hn => ?_⟩
  · -- The slot was filled just now, or before and has not been touched.
    rw [control.slot] at taken
    rcases Action.slotAfter_eq_delegated taken with ⟨rfl, rfl⟩ | ⟨before, kept⟩
    · obtain ⟨owns, -, -, valid, -, -⟩ := Account.delegate_eq_ok_iff.1 staged
      rw [filed] at owns valid
      subst owns
      exact ⟨valid, since_concat.2 (.inl ⟨accepted, rfl⟩)⟩
    · obtain ⟨valid, since⟩ := h.slot before
      refine ⟨valid, since_concat.2 (.inr ⟨since, ?_⟩)⟩
      rw [performs_iff accepted]
      exact kept.symm
  · -- An unpause, or active before and not paused now.
    rw [control.status] at active
    rw [since_concat, performs_iff accepted, performs_iff accepted]
    rcases Action.statusAfter_eq_active active with rfl | ⟨before, kept⟩
    · rintro (now | ⟨-, now⟩)
      · cases now
      · exact now rfl
    · rintro (now | ⟨since, -⟩)
      · exact kept now.symm
      · exact h.active before since
  · -- The pause begins now, or goes on.
    rw [control.status] at paused
    rw [control.pausedAt]
    rcases Action.statusAfter_eq_paused paused with rfl | ⟨before, first, second⟩
    · obtain ⟨owns, -⟩ := Account.pause_eq_ok_iff.1 staged
      rw [filed] at owns
      subst owns
      exact ⟨m.before.now, rfl, since_concat.2 (.inl ⟨accepted, rfl⟩)⟩
    · obtain ⟨start, at_start, since⟩ := h.paused before
      refine ⟨start, (Action.pausedAtAfter_of_ne first).trans at_start, ?_⟩
      rw [since_concat, performs_iff accepted, performs_iff accepted]
      exact .inr ⟨since, fun now => first now.symm, fun now => second now.symm⟩
  · rw [control.status] at isOpen
    rcases List.mem_append.1 hn with earlier | now
    · exact h.isOpen control.isOpen n earlier
    · obtain rfl : n = m := List.mem_singleton.1 now
      rw [performs_iff accepted]
      exact fun closes => Action.statusAfter_close_of_ne isOpen closes.symm

end Remembers

/-- Along every path that starts without escrows, each record remembers its past,
and an escrow without a record has none. -/
theorem Path.remembers (inv : Account.Invariant limits P) {retention : Nat}
    (p : Path (Ledger.fresh limits retention) past l) :
    l.Records limits P ∧
      ∀ owner,
        (l.escrow? owner = none → Untouched owner past) ∧
          ∀ a, l.escrow? owner = some a → Remembers past owner a := by
  apply Path.grow_records
    (Q := fun past l => ∀ owner,
      (l.escrow? owner = none → Untouched owner past) ∧
        ∀ a, l.escrow? owner = some a → Remembers past owner a) inv _ _ p
  · intro owner
    constructor
    · intro _ m hm
      cases hm
    · intro a found
      simp [escrow?, Ledger.fresh] at found
  · intro past l s single records recalls owner
    obtain ⟨absent, present⟩ := recalls owner
    have recordStep : RecordStep ⟨l, s⟩ owner := Records.recordStep records single owner
    cases recordStep with
    | kept same others =>
      constructor
      · intro gone m hm
        rcases List.mem_append.1 hm with earlier | now
        · exact absent (same.symm.trans gone) m earlier
        · obtain rfl : m = ⟨l, s⟩ := List.mem_singleton.1 now
          exact others
      · intro a found
        exact (present a (same.symm.trans found)).kept others
    | opened mint ceiling caps t accepted before created written =>
      constructor
      · intro gone
        cases gone.symm.trans written
      · intro a found
        obtain rfl : a = t.account := Option.some.inj (found.symm.trans written)
        exact .opened (absent before) accepted created
    | acted signer action b t accepted before staged written =>
      constructor
      · intro gone
        cases gone.symm.trans written
      · intro a found
        obtain rfl : a = t.account := Option.some.inj (found.symm.trans written)
        exact (present b before).acted (records.filed before) accepted staged

end Ledger

end DelegatedEscrow
