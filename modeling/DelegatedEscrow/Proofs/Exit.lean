/-
DelegatedEscrow/Proofs/Exit.lean

Funds are never trapped.  Several guards can stand between an owner and the funds:
no withdrawal while a slot is taken, no revocation while paused, no unpause before
the cooldown is over, no close while the escrow holds more than dust.  There is
nevertheless always an order of instructions that gets through, and it can be read
off the record (`Account.wayOut`):

    paused, no delegate   emergencyWithdraw, close
    active                revoke each slot that is taken, withdraw, close
    paused, a delegate    unpause, and then as for an active escrow

Only the last one may have to wait for the clock.  Expiry, nonce and caps do not
come up, since no guard on the way asks for them; and no total can overflow on the
way, since a sound record has been paid all that it pays out.
-/
import DelegatedEscrow.Proofs.History
import DelegatedEscrow.Proofs.Refusal
import DelegatedEscrow.Proofs.Soundness
import DelegatedEscrow.Proofs.Timers

namespace DelegatedEscrow

/-! ### The way out -/

namespace Account

/-- The slots that are taken. -/
def taken (a : Account) : List Authority := Authority.all.filter fun k => a.slot k ≠ .empty

/-- Takes out the whole balance, unless it is zero. -/
def payout (a : Account) (take : Amount → Action) : List Action :=
  if a.balance = 0 then [] else [take a.balance]

/-- What the owner has to do to get the funds and close the escrow. -/
def wayOut (a : Account) : List Action :=
  if a.status = .paused ∧ ¬ a.Delegated then
    a.payout .emergencyWithdraw ++ [.close]
  else
    (if a.status = .paused then [.unpause] else []) ++ a.taken.map .revoke ++
      a.payout .withdraw ++ [.close]

theorem payout_congr {a b : Account} (same : b.balance = a.balance) (take : Amount → Action) :
    b.payout take = a.payout take := by
  rw [payout, payout, same]

theorem mem_taken_iff {a : Account} {k : Authority} : k ∈ a.taken ↔ a.slot k ≠ .empty := by
  cases k <;> simp [taken, Authority.all]

theorem nodup_taken (a : Account) : a.taken.Nodup :=
  List.Pairwise.filter _ (by decide)

theorem not_delegated_of_slots {a : Account} (empty : ∀ k, a.slot k = .empty) :
    ¬ a.Delegated :=
  not_delegated_iff.2 ⟨empty .platform, empty .trading⟩

end Account

theorem Slot.exists_delegate {s : Slot} (taken : s ≠ .empty) : ∃ d, s.delegate? = some d := by
  cases s with
  | empty => exact absurd rfl taken
  | delegated d _ => exact ⟨d, rfl⟩

/-- A sound record has room in its totals for all of its balance. -/
theorem Account.Sound.exists_withdrawn {a : Account} (sound : a.Sound) :
    ∃ withdrawn : Amount, withdrawn.toNat = a.totals.withdrawn.toNat + a.balance.toNat := by
  have accounted := sound.deposited_eq
  have bound := a.totals.deposited.toNat_lt
  rw [Totals.outflow] at accounted
  exact Amount.exists_toNat (by omega)

namespace Ledger

/-! ### Instructions of the owner -/

/-- Actions on the escrow of an owner, signed by the owner, take effect one after
another and lead from one ledger to another. -/
inductive Obeys (owner : Identity) : Ledger → List Action → Ledger → Prop
  | nil {l} : Obeys owner l [] l
  | cons {l l' l'' action actions r}
      (accepted : l.submit ⟨owner, .act owner action⟩ = (l', .ok r))
      (rest : Obeys owner l' actions l'') : Obeys owner l (action :: actions) l''

variable {l l' l'' : Ledger} {owner token : Identity} {a b : Account} {x : Amount} {w : Nat}
variable {action : Action} {actions more : List Action} {t : Transition} {c : Custody}

theorem Obeys.append (p : Obeys owner l actions l') (q : Obeys owner l' more l'') :
    Obeys owner l (actions ++ more) l'' := by
  induction p with
  | nil => exact q
  | cons accepted _ ih => exact .cons accepted (ih q)

/-- They may as well be submitted in one batch, which goes through to its end. -/
theorem Obeys.submitAll (p : Obeys owner l actions l') :
    ∃ receipts, l.submitAll (actions.map fun action => ⟨owner, .act owner action⟩) =
      (l', .ok receipts) := by
  induction p with
  | nil => exact ⟨[], rfl⟩
  | @cons l l' l'' action actions r accepted _ ih =>
    obtain ⟨receipts, rest⟩ := ih
    refine ⟨r :: receipts, ?_⟩
    rw [List.map_cons, Ledger.submitAll, accepted]
    dsimp only
    rw [rest]

/-- An owner whose `x` units are in the escrow, with the tokens in the vault and room
for them in a wallet of `w` units. -/
structure Holding (l : Ledger) (owner token : Identity) (x : Amount) (w : Nat) (a : Account) :
    Prop where
  found : l.escrow? owner = some a
  owner_eq : a.owner = owner
  token_eq : a.mint.id = token
  balance_eq : a.balance = x
  sound : a.Sound
  unarmed : l.custody.armed = none
  held : x.toNat ≤ (l.custody.balance (.vault owner) token).toNat
  wallet : (l.custody.balance (.wallet owner) token).toNat = w
  room : w + x.toNat < UInt64.size

/-- The escrow of an owner is closed, and the wallet of the owner holds `n` units of a
token. -/
structure Released (l : Ledger) (owner token : Identity) (n : Nat) : Prop where
  closed : ∃ b, l.escrow? owner = some b ∧ b.status = .closed
  wallet : (l.custody.balance (.wallet owner) token).toNat = n

namespace Holding

/-- An action that moves no tokens leaves everything but the record in place. -/
theorem silent {p : Payload} (h : l.Holding owner token x w a)
    (staged : action.stage l.setting owner a = .ok (.silent b p)) (kept : b.balance = a.balance) :
    ∃ l', Obeys owner l [action] l' ∧ l'.Holding owner token x w b ∧
      l'.setting = l.setting := by
  have terms : b.SameTerms a := (Action.stage_effect staged).terms
  have placed : l.stage ⟨owner, .act owner action⟩ = .ok (.silent b p) :=
    stage_act_eq_ok_iff.2 ⟨a, h.found, staged⟩
  have accepted := submit_of_settled placed (Transition.settle_of_none rfl l.custody)
  refine ⟨l.written l.custody (.silent b p), .cons accepted .nil, ?_, rfl⟩
  exact {
    found := escrow?_written.trans (if_pos (terms.owner.trans h.owner_eq))
    owner_eq := terms.owner.trans h.owner_eq
    token_eq := (congrArg Mint.id terms.mint).trans h.token_eq
    balance_eq := kept.trans h.balance_eq
    sound := Account.sound_stage h.sound staged
    unarmed := h.unarmed
    held := h.held
    wallet := h.wallet
    room := h.room }

/-- One slot after the other is revoked. -/
theorem revoke_all {slots : List Authority} (distinct : slots.Nodup)
    (h : l.Holding owner token x w a) (active : a.status = .active)
    (slots_iff : ∀ k, k ∈ slots ↔ a.slot k ≠ .empty) :
    ∃ l' b, Obeys owner l (slots.map .revoke) l' ∧ l'.Holding owner token x w b ∧
      b.status = .active ∧ ¬ b.Delegated := by
  induction slots generalizing l a with
  | nil =>
    have empty : ∀ k, a.slot k = .empty := by
      intro k
      have none := slots_iff k
      simpa using none
    exact ⟨l, a, .nil, h, active, Account.not_delegated_of_slots empty⟩
  | cons k slots ih =>
    obtain ⟨fresh, distinct⟩ := List.nodup_cons.1 distinct
    obtain ⟨d, taken⟩ := Slot.exists_delegate ((slots_iff k).1 List.mem_cons_self)
    have staged : (Action.revoke k).stage l.setting owner a =
        .ok (.silent (a.setSlot k .empty) (.revoked k d)) :=
      Account.revoke_eq_ok_iff.2 ⟨h.owner_eq.symm, active, d, taken, rfl⟩
    have kept : (a.setSlot k .empty).balance = a.balance := by cases k <;> rfl
    have still : (a.setSlot k .empty).status = .active := by cases k <;> exact active
    -- What is still taken afterwards are the slots that are still to come.
    have left_iff : ∀ j, j ∈ slots ↔ (a.setSlot k .empty).slot j ≠ .empty := by
      intro j
      rw [Account.slot_setSlot]
      by_cases same : k = j
      · subst same
        simpa using fresh
      · rw [if_neg same, ← slots_iff, List.mem_cons]
        simp [Ne.symm same]
    obtain ⟨l₁, first, holding, -⟩ := h.silent staged kept
    obtain ⟨l₂, b, rest, done⟩ := ih distinct holding still left_iff
    exact ⟨l₂, b, first.append rest, done⟩

/-- An empty escrow without delegates can be closed. -/
theorem close (found : l.escrow? owner = some a) (owns : a.owner = owner)
    (isOpen : a.status ≠ .closed) (free : ¬ a.Delegated) (empty : a.balance = 0) :
    ∃ l', Obeys owner l [.close] l' ∧
      l'.Released owner token (l.custody.balance (.wallet owner) token).toNat := by
  have dust : a.balance ≤ l.limits.dust := by
    rw [empty]
    exact Nat.zero_le _
  have staged : (Action.close).stage l.setting owner a = .ok _ :=
    Account.close_eq_ok_iff.2 ⟨isOpen, owns.symm, ⟨dust, free⟩, a.totals.withdrawn,
      by simp [empty], rfl⟩
  have placed := stage_act_eq_ok_iff.2 ⟨a, found, staged⟩
  have accepted :=
    submit_of_settled placed (Transition.settle_of_none (if_pos empty) l.custody)
  exact ⟨_, .cons accepted .nil, ⟨_, escrow?_written.trans (if_pos owns), rfl⟩, rfl⟩

/-- Without delegates, the owner gets the whole balance into the wallet.  Which of the
two withdrawals does it depends on the status; both do the same. -/
theorem pay {take : Amount → Action} {flow : Flow} (h : l.Holding owner token x w a)
    (positive : 0 < a.balance.toNat) (free : ¬ a.Delegated)
    (takes : ∀ t, a.takeBack owner flow a.balance = .ok t →
      (take a.balance).stage l.setting owner a = .ok t) :
    ∃ l' withdrawn, Obeys owner l [take a.balance] l' ∧
      l'.escrow? owner =
        some { a with balance := 0, totals := { a.totals with withdrawn } } ∧
      (l'.custody.balance (.wallet owner) token).toNat = w + x.toNat := by
  have balance := h.balance_eq
  obtain ⟨withdrawn, total⟩ := h.sound.exists_withdrawn
  let paid : Account := { a with balance := 0, totals := { a.totals with withdrawn } }
  have taken : a.takeBack owner flow a.balance = .ok (.payOut paid flow owner a.balance) :=
    Account.takeBack_eq_ok_iff.2 ⟨positive, free, 0, by simp, withdrawn, total, rfl⟩
  have placed := stage_act_eq_ok_iff.2 ⟨a, h.found, takes _ taken⟩
  -- The vault has the tokens, and the wallet has room for them.
  have enough : a.balance.toNat ≤ (l.custody.balance (.vault owner) a.mint.id).toNat := by
    rw [h.token_eq, balance]
    exact h.held
  have room : (l.custody.balance (.wallet owner) a.mint.id).toNat + a.balance.toNat <
      UInt64.size := by
    rw [h.token_eq, h.wallet, balance]
    exact h.room
  obtain ⟨c, moved⟩ := Custody.transfer_ok h.unarmed enough room
  have settled : (Transition.payOut paid flow owner a.balance).settle l.custody = (c, .ok ()) := by
    rw [Transition.settle_of_some rfl, ← moved]
    show l.custody.transfer (.vault a.owner) _ a.mint _ = _
    rw [h.owner_eq]
  have accepted := submit_of_settled placed settled
  have found : (l.written c (.payOut paid flow owner a.balance)).escrow? owner = some paid :=
    escrow?_written.trans (if_pos h.owner_eq)
  have entries := Custody.transfer_entries moved (.wallet owner) token
  have apart : Holder.vault owner ≠ .wallet owner := by simp
  rw [Custody.entry_of_ne apart, Custody.entry, if_pos ⟨rfl, h.token_eq⟩, h.wallet, balance]
    at entries
  exact ⟨_, withdrawn, .cons accepted .nil, found, entries⟩

/-- And then nothing is left that would keep the escrow open. -/
theorem leave {take : Amount → Action} {flow : Flow} (h : l.Holding owner token x w a)
    (isOpen : a.status ≠ .closed) (free : ¬ a.Delegated)
    (takes : ∀ t, a.takeBack owner flow a.balance = .ok t →
      (take a.balance).stage l.setting owner a = .ok t) :
    ∃ l', Obeys owner l (a.payout take ++ [.close]) l' ∧
      l'.Released owner token (w + x.toNat) := by
  unfold Account.payout
  by_cases empty : a.balance = 0
  · -- There is nothing to take out.
    rw [if_pos empty]
    have nothing : x.toNat = 0 := by rw [← h.balance_eq, empty, Amount.toNat_zero]
    rw [nothing, ← h.wallet]
    exact close h.found h.owner_eq isOpen free empty
  · rw [if_neg empty]
    have positive : 0 < a.balance.toNat := by
      rw [Amount.eq_zero_iff] at empty
      omega
    obtain ⟨l₁, withdrawn, pays, found, wallet⟩ := h.pay positive free takes
    obtain ⟨l₂, closes, released⟩ := close found h.owner_eq isOpen free rfl
    rw [← wallet]
    exact ⟨l₂, pays.append closes, released⟩

theorem leave_active (h : l.Holding owner token x w a) (active : a.status = .active)
    (free : ¬ a.Delegated) :
    ∃ l', Obeys owner l (a.payout .withdraw ++ [.close]) l' ∧
      l'.Released owner token (w + x.toNat) :=
  h.leave (by simp [active]) free fun _ taken =>
    Account.withdraw_eq_ok_iff.2 ⟨h.owner_eq.symm, active, taken⟩

theorem leave_paused (h : l.Holding owner token x w a) (paused : a.status = .paused)
    (free : ¬ a.Delegated) :
    ∃ l', Obeys owner l (a.payout .emergencyWithdraw ++ [.close]) l' ∧
      l'.Released owner token (w + x.toNat) :=
  h.leave (by simp [paused]) free fun _ taken =>
    Account.emergencyWithdraw_eq_ok_iff.2 ⟨h.owner_eq.symm, paused, taken⟩

/-- The way out of an active escrow. -/
theorem revoke_and_leave (h : l.Holding owner token x w a) (active : a.status = .active) :
    ∃ l', Obeys owner l (a.taken.map .revoke ++ a.payout .withdraw ++ [.close]) l' ∧
      l'.Released owner token (w + x.toNat) := by
  obtain ⟨l₁, b, revokes, holding, still, free⟩ :=
    h.revoke_all a.nodup_taken active fun _ => Account.mem_taken_iff
  have same : b.balance = a.balance := holding.balance_eq.trans h.balance_eq.symm
  obtain ⟨l₂, leaves, released⟩ := holding.leave_active still free
  rw [Account.payout_congr same] at leaves
  have whole := revokes.append leaves
  rw [← List.append_assoc] at whole
  exact ⟨l₂, whole, released⟩

/-- The way out of any escrow that is open, once an unpause has cooled down if one is
needed. -/
theorem wayOut (h : l.Holding owner token x w a) (isOpen : a.status ≠ .closed)
    (cooled : a.status = .paused → a.Delegated →
      a.cooldownRemaining l.now l.limits.cooldown ≤ 0) :
    ∃ l', Obeys owner l a.wayOut l' ∧ l'.Released owner token (w + x.toNat) := by
  unfold Account.wayOut
  rcases e : a.status with - | - | -
  · rw [if_neg (by simp), if_neg (by simp), List.nil_append]
    exact h.revoke_and_leave e
  · by_cases delegated : a.Delegated
    · -- An unpause makes this the way out of an active escrow with the same slots.
      rw [if_neg (by simp [delegated]), if_pos rfl]
      have staged : (Action.unpause).stage l.setting owner a =
          .ok (.silent { a with status := .active } .unpaused) :=
        Account.unpause_eq_ok_iff.2 ⟨h.owner_eq.symm, e, cooled e delegated, rfl⟩
      obtain ⟨l₁, unpauses, holding, -⟩ := h.silent staged rfl
      obtain ⟨l₂, leaves, released⟩ := holding.revoke_and_leave rfl
      exact ⟨l₂, unpauses.append leaves, released⟩
    · rw [if_pos ⟨rfl, delegated⟩]
      exact h.leave_paused e delegated
  · exact absurd e isOpen

/-- It goes through as one batch. -/
theorem exit {limits : Limits} (h : l.Holding owner token x w a) (under : l.limits = limits)
    (isOpen : a.status ≠ .closed)
    (cooled : a.status = .paused → a.Delegated →
      a.cooldownRemaining l.now limits.cooldown ≤ 0) :
    ∃ final receipts,
      l.submitAll (a.wayOut.map fun action => ⟨owner, .act owner action⟩) =
        (final, .ok receipts) ∧
      final.Released owner token (w + x.toNat) := by
  rw [← under] at cooled
  obtain ⟨final, obeys, released⟩ := h.wayOut isOpen cooled
  obtain ⟨receipts, batch⟩ := obeys.submitAll
  exact ⟨final, receipts, batch, released⟩

end Holding

/-! ### Waiting for the cooldown -/

/-- If the end of the cooldown can be shown on the clock at all, it is over now or at
a later reading. -/
theorem exists_cooled {limits : Limits} {now began : Timestamp}
    (positive : 0 ≤ limits.cooldown.toInt) (since : a.pausedAt = some began)
    (shown : began.toInt + limits.cooldown.toInt ≤ Int64.maxValue.toInt) :
    a.cooldownRemaining now limits.cooldown ≤ 0 ∨
      ∃ later, now < later ∧ a.cooldownRemaining later limits.cooldown ≤ 0 := by
  simp only [Account.cooled_iff positive since]
  by_cases elapsed : limits.cooldown.toInt ≤ now.toInt - began.toInt
  · exact .inl elapsed
  · have lowest : Int64.minValue.toInt ≤ began.toInt := began.secs.minValue_le_toInt
    have reading : (began.plus limits.cooldown).toInt = began.toInt + limits.cooldown.toInt := by
      rw [Timestamp.toInt_plus, Seconds.clamp_of_le_of_le (by omega) shown]
    refine .inr ⟨began.plus limits.cooldown, ?_, by omega⟩
    show now.toInt < (began.plus limits.cooldown).toInt
    omega

/-- **Funds are never trapped.**  From every state in which the vault holds the balance,
the wallet has room for it and custody lets transfers pass, the way out that is read
off the record goes through and ends with the escrow closed and the balance in the
wallet.  Only a paused escrow with a delegate may have to wait for a later reading of
the clock. -/
theorem funds_never_trapped (limits : Limits) (retention : Nat) (start : Ledger)
    (started : Ledger.start limits retention = .ok start) (steps : List Step) (l : Ledger)
    (reached : start.run steps = l) (owner : Identity) (a : Account)
    (found : l.escrow? owner = some a) (isOpen : a.status ≠ .closed)
    (unarmed : l.custody.armed = none)
    (held : a.balance ≤ l.custody.balance (.vault owner) a.mint.id)
    (room : (l.custody.balance (.wallet owner) a.mint.id).toNat + a.balance.toNat < UInt64.size)
    (shown : a.status = .paused → a.Delegated → ∀ began, a.pausedAt = some began →
      began.toInt + limits.cooldown.toInt ≤ Int64.maxValue.toInt) :
    ∃ ready,
      (ready = l ∨
        (a.status = .paused ∧ a.Delegated) ∧ ∃ later, l.now < later ∧ ready = l.setTime later) ∧
      ∃ final receipts,
        ready.submitAll (a.wayOut.map fun action => ⟨owner, .act owner action⟩) =
          (final, .ok receipts) ∧
        final.Released owner a.mint.id
          ((l.custody.balance (.wallet owner) a.mint.id).toNat + a.balance.toNat) := by
  obtain ⟨-, cooldown⟩ := spans_of_start started
  obtain ⟨-, rfl⟩ := start_eq_ok_iff.1 started
  have path : Path (Ledger.fresh limits retention)
      ((Ledger.fresh limits retention).trace steps) l := reached ▸ path_trace _ steps
  obtain ⟨records, recalls⟩ := path.remembers (Account.sound_invariant limits)
  have remembers := (recalls owner).2 a found
  -- Nothing in a holding depends on the clock.
  have holding : ∀ now, (l.setTime now).Holding owner a.mint.id a.balance
      (l.custody.balance (.wallet owner) a.mint.id).toNat a := fun now =>
    ⟨found, records.filed found, rfl, rfl, records.each found, unarmed, held, rfl, room⟩
  have under : ∀ now, (l.setTime now).limits = limits := fun _ => records.limits_eq
  by_cases waits : a.status = .paused ∧ a.Delegated
  · obtain ⟨began, since, -⟩ := remembers.paused waits.1
    rcases exists_cooled cooldown since (shown waits.1 waits.2 began since) with
      elapsed | ⟨later, ahead, elapsed⟩
    · exact ⟨l, .inl rfl, (holding l.now).exit (under _) isOpen fun _ _ => elapsed⟩
    · exact ⟨l.setTime later, .inr ⟨waits, later, ahead, rfl⟩,
        (holding later).exit (under _) isOpen fun _ _ => elapsed⟩
  · exact ⟨l, .inl rfl, (holding l.now).exit (under _) isOpen fun paused delegated =>
      absurd ⟨paused, delegated⟩ waits⟩

/-- A run that ends in a paused escrow with two delegates, of which one has spent. -/
def siege : List Step :=
  [.issue (.wallet (.ofSeed 1)) .usdc ⟨100⟩,
    .submit ⟨.ofSeed 1, .create .usdc 0 .unlimited⟩,
    .submit ⟨.ofSeed 1, .act (.ofSeed 1) (.deposit ⟨60⟩)⟩,
    .submit ⟨.ofSeed 1, .act (.ofSeed 1) (.delegate .platform (.ofSeed 100))⟩,
    .submit ⟨.ofSeed 1, .act (.ofSeed 1) (.delegate .trading (.ofSeed 200))⟩,
    .setTime ⟨300⟩,
    .submit ⟨.ofSeed 200, .act (.ofSeed 1) (.trade ⟨20⟩ 0 ⟨300⟩)⟩,
    .submit ⟨.ofSeed 1, .act (.ofSeed 1) .pause⟩]

/-- The record at its end. -/
def besieged : Account where
  owner := .ofSeed 1
  mint := .usdc
  platform := .delegated (.ofSeed 100) ⟨0⟩
  trading := .delegated (.ofSeed 200) ⟨0⟩
  status := .paused
  balance := ⟨40⟩
  ceiling := Limits.standard.defaultCeiling
  caps := .unlimited
  lifetime := none
  createdAt := ⟨0⟩
  pausedAt := some ⟨300⟩
  nonce := 1
  totals := ⟨⟨60⟩, 0, 0, ⟨20⟩⟩

/-- The owner gets the remaining 40 units back into a wallet that holds 40 already. -/
theorem siege_lifted :
    besieged.wayOut =
        [.unpause, .revoke .platform, .revoke .trading, .withdraw ⟨40⟩, .close] ∧
      ((Ledger.fresh .standard 8).run siege).escrow? (.ofSeed 1) = some besieged ∧
      ∃ (ready final : Ledger) (receipts : List Receipt),
        ready.submitAll (besieged.wayOut.map fun action => ⟨.ofSeed 1, .act (.ofSeed 1) action⟩) =
          (final, .ok receipts) ∧
        final.Released (.ofSeed 1) Mint.usdc.id (40 + 40) := by
  have found : ((Ledger.fresh .standard 8).run siege).escrow? (.ofSeed 1) = some besieged := by
    decide +kernel
  have shown : ∀ began, besieged.pausedAt = some began →
      began.toInt + Limits.standard.cooldown.toInt ≤ Int64.maxValue.toInt := by
    intro began since
    obtain rfl : ⟨300⟩ = began := Option.some.inj since
    decide
  obtain ⟨ready, -, final, receipts, batch, released⟩ :=
    funds_never_trapped .standard 8 _ (start_standard 8) siege _ rfl (.ofSeed 1) besieged found
      (by decide) (by decide +kernel) (by decide +kernel) (by decide +kernel)
      fun _ _ => shown
  have wallet : (((Ledger.fresh .standard 8).run siege).custody.balance (.wallet (.ofSeed 1))
      besieged.mint.id).toNat + besieged.balance.toNat = 40 + 40 := by
    decide +kernel
  rw [wallet] at released
  exact ⟨by decide, found, ready, final, receipts, batch, released⟩

end Ledger

end DelegatedEscrow
