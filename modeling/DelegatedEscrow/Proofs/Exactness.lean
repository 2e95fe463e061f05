/-
DelegatedEscrow/Proofs/Exactness.lean

An accepted instruction is exact and local.  It touches the record of its target, two
purses and the end of the journal, and what it writes there agrees to the unit:

* `Ledger.Frame`     everything else of the ledger stays;
* `Ledger.Tells`     one event is appended, and receipt, event and record say the same;
* `Custody.Follows`  vault and wallet make up for the change of the balance;
* `Custody.Counts`   the count of transfers goes up by one just if there is such a change;
* `Account.Booked`   the terms stay, and the change is booked under one of the totals.

Which total that is needs no look at the rules.  The event of an action books one amount
under one total (`Action.one_total`), and the change of the balance is the change of all
totals together (`Account.Books.volume`), so the amount can only be the change.
-/
import DelegatedEscrow.Proofs.Audit
import DelegatedEscrow.Proofs.Settlement

namespace DelegatedEscrow

/-! ### Totals one by one -/

/-- One of the four totals of an escrow. -/
inductive Total where
  | deposited
  | withdrawn
  | fees
  | traded
deriving DecidableEq, Repr

/-- The total of this kind. -/
def Totals.of (t : Totals) : Total → Amount
  | .deposited => t.deposited
  | .withdrawn => t.withdrawn
  | .fees => t.fees
  | .traded => t.traded

/-- The total that funds are booked under. -/
def Flow.total : Flow → Total
  | deposit => .deposited
  | withdrawal | emergencyWithdrawal => .withdrawn
  | subscriptionFee => .fees
  | tradeWithdrawal => .traded

/-- From `t` to `u` the total of kind `k` grows by `n`, and the others stay. -/
def Totals.Grows (t u : Totals) (k : Total) (n : Nat) : Prop :=
  ∀ j, (u.of j).toNat = (t.of j).toNat + if j = k then n else 0

theorem Totals.grows_of_book {t u : Totals} {amount : Amount} {flow : Flow}
    (booked : t.book amount flow = some u) : t.Grows u flow.total amount.toNat := by
  cases flow <;>
  · obtain ⟨sum, added, rfl⟩ := Option.map_eq_some_iff.1 booked
    rw [Amount.add?_eq_some_iff] at added
    intro j
    cases j <;> simp [Totals.of, Flow.total, added]

/-- From `t` to `u` and on to `v` a total grows by what it grows by on both parts. -/
theorem Totals.Grows.trans {t u v : Totals} {k : Total} {m n : Nat} (first : t.Grows u k m)
    (second : u.Grows v k n) : t.Grows v k (m + n) := by
  intro j
  rw [second j, first j]
  split <;> omega

/-- Growth by so much under a total leaves no choice. -/
theorem Totals.Grows.unique {t u v : Totals} {k : Total} {n : Nat} (one : t.Grows u k n)
    (other : t.Grows v k n) : u = v := by
  have same : ∀ j, u.of j = v.of j := by
    intro j
    rw [← Amount.toNat_inj, one j, other j]
  obtain ⟨deposited, withdrawn, fees, traded⟩ := u
  obtain rfl : deposited = v.deposited := same .deposited
  obtain rfl : withdrawn = v.withdrawn := same .withdrawn
  obtain rfl : fees = v.fees := same .fees
  obtain rfl : traded = v.traded := same .traded
  rfl

/-- Something that happens to a record is booked under one total, if under any. -/
theorem Account.one_total_of_amended {a b : Account} {time : Timestamp} {what : Payload}
    (amended : a.amended time what = some b) :
    b.totals = a.totals ∨ ∃ k n, a.totals.Grows b.totals k n := by
  cases what with
  | opened mint ceiling => cases amended
  | paused | unpaused | lifetimeSet secs => cases amended; exact .inl rfl
  | delegated k d usableAt => cases amended; cases k <;> exact .inl rfl
  | revoked k d => cases amended; cases k <;> exact .inl rfl
  | closed swept =>
    obtain ⟨totals, booked, rfl⟩ := Option.map_eq_some_iff.1 amended
    exact .inr ⟨_, _, Totals.grows_of_book booked⟩
  | funds flow change =>
    obtain ⟨totals, booked, rfl⟩ := Option.map_eq_some_iff.1 amended
    exact .inr ⟨_, _, Totals.grows_of_book booked⟩

/-- Where an event tells a new balance, it is the one that is written down. -/
theorem Account.newBalance_of_amended {a b : Account} {time : Timestamp} {what : Payload}
    {change : BalanceChange} (amended : a.amended time what = some b)
    (tells : what.change? = some change) : change.newBalance = b.balance := by
  cases what with
  | funds flow told =>
    obtain rfl : told = change := Option.some.inj tells
    obtain ⟨totals, -, rfl⟩ := Option.map_eq_some_iff.1 amended
    rfl
  | _ => cases tells

namespace Action

variable {s : Setting} {signer : Identity} {a : Account} {action : Action} {t : Transition}

theorem one_total (h : action.stage s signer a = .ok t) :
    t.account.totals = a.totals ∨ ∃ k n, a.totals.Grows t.account.totals k n := by
  -- What the event says is what the rule has written, but for the nonce.
  obtain ⟨b, amended, same⟩ := Option.map_eq_some_iff.1 (audit_stage h)
  have totals : t.account.totals = b.totals := by rw [← same]
  rw [totals]
  exact Account.one_total_of_amended amended

theorem newBalance_stage (h : action.stage s signer a = .ok t) {change : BalanceChange}
    (tells : t.payload.change? = some change) : change.newBalance = t.account.balance := by
  obtain ⟨b, amended, same⟩ := Option.map_eq_some_iff.1 (audit_stage h)
  have balance : t.account.balance = b.balance := by rw [← same]
  rw [balance]
  exact Account.newBalance_of_amended amended tells

end Action

/-! ### The record -/

/-- By how much two amounts differ. -/
def Amount.gap (x y : Amount) : Nat := ((y.toNat : Int) - x.toNat).natAbs

/-- All that has been booked, in and out. -/
def Totals.volume (t : Totals) : Nat := t.deposited.toNat + t.outflow

theorem Totals.Grows.volume {t u : Totals} {k : Total} {n : Nat} (grows : t.Grows u k n) :
    u.volume = t.volume + n := by
  have deposited := grows .deposited
  have withdrawn := grows .withdrawn
  have fees := grows .fees
  have traded := grows .traded
  cases k <;>
  · simp [Totals.of] at deposited withdrawn fees traded
    simp only [Totals.volume, Totals.outflow]
    omega

/-- What an action leaves as it is in a record, and how it books a change of the
balance. -/
structure Account.Booked (a b : Account) : Prop where
  terms : b.SameTerms a
  monotone : ∀ k, a.totals.of k ≤ b.totals.of k
  still : b.balance = a.balance → b.totals = a.totals
  moved : b.balance ≠ a.balance → ∃ k, a.totals.Grows b.totals k (a.balance.gap b.balance)

namespace Account.Books

variable {signer : Identity} {a : Account} {action : Action} {t : Transition}

/-- What is booked is the change of the balance. -/
theorem volume (books : Books signer a action t) :
    t.account.totals.volume = a.totals.volume + a.balance.gap t.account.balance := by
  cases books with
  | still _ balance totals => simp [balance, totals, Amount.gap]
  | paidIn amount _ _ _ balance _ deposited outflow =>
    simp only [Totals.volume, Amount.gap, balance, deposited, outflow]
    omega
  | paidOut amount _ _ balance deposited outflow =>
    simp only [Totals.volume, Amount.gap, ← balance, deposited, outflow]
    omega

/-- Tokens move just if the balance changes. -/
theorem movement_eq_none_iff (books : Books signer a action t) :
    t.movement = none ↔ t.account.balance = a.balance := by
  rw [← Amount.toNat_inj]
  cases books with
  | still movement balance _ => simp [movement, balance]
  | paidIn amount _ positive movement balance _ _ _ =>
    rw [movement]
    simp only [reduceCtorEq, false_iff]
    omega
  | paidOut amount positive movement balance _ _ =>
    rw [movement]
    simp only [reduceCtorEq, false_iff]
    omega

theorem totals_of_balance_eq (books : Books signer a action t)
    (same : t.account.balance = a.balance) : t.account.totals = a.totals := by
  have movement := books.movement_eq_none_iff.2 same
  cases books with
  | still _ _ totals => exact totals
  | paidIn _ _ _ moved _ _ _ _ => cases movement.symm.trans moved
  | paidOut _ _ moved _ _ _ => cases movement.symm.trans moved

end Account.Books

/-- The change is booked under the one total that the event names. -/
theorem Action.booked {s : Setting} {signer : Identity} {a : Account} {action : Action}
    {t : Transition} (h : action.stage s signer a = .ok t) : a.Booked t.account := by
  obtain ⟨terms, books, -, -⟩ := stage_effect h
  refine ⟨terms, fun k => ?_, books.totals_of_balance_eq, fun moved => ?_⟩
  · rcases one_total h with same | ⟨j, n, grows⟩
    · rw [same]
      exact Nat.le_refl _
    · rw [Amount.le_iff_toNat_le, grows k]
      exact Nat.le_add_right _ _
  · have volume := books.volume
    rcases one_total h with same | ⟨k, n, grows⟩
    · -- Without a booking the balance could not have changed.
      rw [same] at volume
      rw [Ne, ← Amount.toNat_inj] at moved
      unfold Amount.gap at volume
      omega
    · -- Both `n` and the change are what the volume has grown by.
      obtain rfl : n = a.balance.gap t.account.balance := by
        have grown := grows.volume
        omega
      exact ⟨k, grows⟩

/-! ### Custody -/

/-- From `c` to `d` the count of transfers goes up by one if tokens have `moved`, and else
it stays.  It is kept in a word, and starts over after the last number of a word. -/
structure Custody.Counts (c d : Custody) (moved : Prop) [Decidable moved] : Prop where
  word : d.transfers = c.transfers + if moved then 1 else 0
  changed : d.transfers ≠ c.transfers ↔ moved
  number : c.transfers.toNat + 1 < UInt64.size →
    d.transfers.toNat = c.transfers.toNat + if moved then 1 else 0

/-- From `c` to `d` the vault of an owner goes from `old` to `new` units of a token, the
wallet of a signer makes up for it, and nothing else moves; one transfer is counted if
there was something to move. -/
structure Custody.Follows (c d : Custody) (owner signer token : Identity)
    (old new : Amount) : Prop where
  vault : ((d.balance (.vault owner) token).toNat : Int) - (c.balance (.vault owner) token).toNat =
    new.toNat - old.toNat
  wallet :
    ((d.balance (.wallet signer) token).toNat : Int) - (c.balance (.wallet signer) token).toNat =
      old.toNat - new.toNat
  others : ∀ h other, (other = token → h ≠ .vault owner ∧ h ≠ .wallet signer) →
    d.balance h other = c.balance h other
  counts : c.Counts d (new ≠ old)

namespace Custody

variable {c d : Custody} {owner signer token : Identity} {old new : Amount}

theorem Counts.of_word {moved : Prop} [Decidable moved]
    (word : d.transfers = c.transfers + if moved then 1 else 0) : c.Counts d moved where
  word := word
  changed := by
    rw [word, Ne, UInt64.add_eq_left]
    split <;> simp [*]
  number room := by
    rw [word]
    split
    · rw [UInt64.toNat_add]
      exact Nat.mod_eq_of_lt room
    · rw [UInt64.add_zero, Nat.add_zero]

theorem Follows.refl (c : Custody) (owner signer token : Identity) (x : Amount) :
    c.Follows c owner signer token x x where
  vault := by omega
  wallet := by omega
  others _ _ _ := rfl
  counts := .of_word (by simp)

/-- Double entry, read at the vault, at the wallet and anywhere else. -/
theorem Follows.of_entries
    (entries : ∀ k other,
      (d.balance k other).toNat + entry (.vault owner) token old k other +
          entry (.wallet signer) token new k other =
        (c.balance k other).toNat + entry (.vault owner) token new k other +
          entry (.wallet signer) token old k other)
    (counts : c.Counts d (new ≠ old)) :
    c.Follows d owner signer token old new where
  vault := by
    have balanced := entries (.vault owner) token
    simp [entry] at balanced
    omega
  wallet := by
    have balanced := entries (.wallet signer) token
    simp [entry] at balanced
    omega
  others h other elsewhere := by
    -- No entry is about this purse.
    have atVault : ¬ (Holder.vault owner = h ∧ token = other) := by
      rintro ⟨rfl, rfl⟩
      exact (elsewhere rfl).1 rfl
    have atWallet : ¬ (Holder.wallet signer = h ∧ token = other) := by
      rintro ⟨rfl, rfl⟩
      exact (elsewhere rfl).2 rfl
    have balanced := entries h other
    simp only [entry, if_neg atVault, if_neg atWallet] at balanced
    exact Amount.toNat_inj.1 (by omega)
  counts := counts

end Custody

/-! ### The ledger -/

namespace Ledger

/-- From `l` to `l'` nothing but one record, custody and the journal can have changed. -/
structure Frame (l l' : Ledger) (owner : Identity) : Prop where
  others : ∀ other, other ≠ owner → l'.escrow? other = l.escrow? other
  now : l'.now = l.now
  limits : l'.limits = l.limits

/-- From `l` to `l'` the event `e` is appended and no other, the oldest event going if
there is no room; and event, receipt and record say the same. -/
structure Tells (l l' : Ledger) (r : Receipt) (b : Account) (e : Event) : Prop where
  appended : l'.journal.events =
    (l.journal.events ++ [e]).drop (l.journal.events.length + 1 - l.journal.capacity)
  capacity : l'.journal.capacity = l.journal.capacity
  next : e.id = l.journal.nextId ∧ l'.journal.nextId = e.id + 1
  time : e.time = l.now
  escrow : e.escrow = b.owner
  nonce : e.nonce = b.nonce
  newBalance : ∀ change, e.payload.change? = some change → change.newBalance = b.balance
  receipt : r = ⟨e.id, e.escrow, b.balance, b.nonce⟩

/-- The balance on record, which is zero where there is no record. -/
def onRecord (l : Ledger) (owner : Identity) : Amount :=
  ((l.escrow? owner).map Account.balance).getD 0

variable {limits : Limits} {P : Account → Prop} {l l' : Ledger} {c : Custody}
variable {i : Signed} {t : Transition} {r : Receipt}

theorem frame_written : l.Frame (l.written c t) t.account.owner where
  others other elsewhere := by rw [escrow?_written, if_neg (Ne.symm elsewhere)]
  now := rfl
  limits := rfl

theorem Frame.trans {l'' : Ledger} {owner : Identity} (first : l.Frame l' owner)
    (second : l'.Frame l'' owner) : l.Frame l'' owner where
  others other elsewhere := (second.others other elsewhere).trans (first.others other elsewhere)
  now := second.now.trans first.now
  limits := second.limits.trans first.limits

/-- The event of an opening tells no new balance; that of an action tells the one on
record. -/
theorem newBalance_of_staged (staged : l.stage i = .ok t) (change : BalanceChange)
    (tells : t.payload.change? = some change) : change.newBalance = t.account.balance := by
  obtain ⟨signer, ⟨mint, ceiling, caps⟩ | ⟨owner, action⟩⟩ := i
  · obtain ⟨-, created⟩ := stage_create_eq_ok_iff.1 staged
    obtain ⟨-, -, granted, -, rfl⟩ := Setting.create_eq_ok_iff.1 created
    cases tells
  · obtain ⟨a, -, acted⟩ := stage_act_eq_ok_iff.1 staged
    exact Action.newBalance_stage acted tells

theorem tells_written (staged : l.stage i = .ok t) :
    l.Tells (l.written c t) (l.receiptFor t) t.account (l.announcement t) where
  appended := rfl
  capacity := rfl
  next := ⟨rfl, rfl⟩
  time := rfl
  escrow := rfl
  nonce := rfl
  newBalance := newBalance_of_staged staged
  receipt := rfl

theorem follows_of_settled (records : l.Records limits P) (staged : l.stage i = .ok t)
    (settled : t.settle l.custody = (c, .ok ())) :
    l.custody.Follows c i.target i.signer t.account.mint.id (l.onRecord i.target)
      t.account.balance := by
  obtain ⟨signer, ⟨mint, ceiling, caps⟩ | ⟨owner, action⟩⟩ := i
  · -- A new escrow is empty, and nothing moves.
    obtain ⟨absent, created⟩ := stage_create_eq_ok_iff.1 staged
    obtain ⟨-, balance, movement, -⟩ := Setting.create_effect created
    rw [Transition.settle_of_none movement] at settled
    cases settled
    have nothing : l.onRecord signer = 0 := by rw [onRecord, absent]; rfl
    rw [balance]
    show l.custody.Follows _ signer signer _ (l.onRecord signer) _
    rw [nothing]
    exact .refl _ _ _ _ _
  · obtain ⟨a, found, acted⟩ := stage_act_eq_ok_iff.1 staged
    obtain ⟨terms, books, -, -⟩ := Action.stage_effect acted
    have entries := books.settle_entries terms.mint settled
    have word := Transition.transfers_settle settled
    simp only [books.movement_eq_none_iff, ← ite_not (t.account.balance = a.balance)] at word
    rw [records.filed found, ← terms.mint] at entries
    show l.custody.Follows _ owner signer _ (l.onRecord owner) _
    have before : l.onRecord owner = a.balance := by rw [onRecord, found]; rfl
    rw [before]
    exact .of_entries entries (.of_word word)

/-- **Exact and local.**  In any reachable ledger an instruction that is accepted touches
the record of its target, two purses and the end of the journal.  Record, receipt and
event agree; vault and wallet make up for the change of the balance, and one transfer is
counted just if there is such a change; and where the record was there before, its terms
stay and the change is booked under one total. -/
theorem accepted_exactly {limits : Limits} {retention : Nat} {steps : List Step}
    {l l' : Ledger} {i : Signed} {r : Receipt}
    (reached : (Ledger.fresh limits retention).run steps = l)
    (accepted : l.submit i = (l', .ok r)) :
    ∃ b e, l'.escrow? i.target = some b ∧ b.owner = i.target ∧
      l.Frame l' i.target ∧ l.Tells l' r b e ∧
      l.custody.Follows l'.custody i.target i.signer b.mint.id (l.onRecord i.target) b.balance ∧
      ∀ owner action, i.instruction = .act owner action →
        ∃ a, l.escrow? owner = some a ∧ a.Booked b := by
  have records : l.Records limits fun _ => True := by
    rw [← reached]
    exact (Records.run (Account.invariant_true limits) retention steps).1
  obtain ⟨t, c, staged, settled, rfl, rfl⟩ := submit_eq_ok accepted
  -- Records are filed under their owners, so the one written is that of the target.
  have owns : t.account.owner = i.target := records.target staged
  refine ⟨t.account, l.announcement t, ?_, owns, ?_, tells_written staged,
    follows_of_settled records staged settled, ?_⟩
  · rw [escrow?_written, if_pos owns]
  · rw [← owns]
    exact frame_written
  · intro owner action is
    obtain ⟨signer, instruction⟩ := i
    obtain rfl : instruction = .act owner action := is
    obtain ⟨a, found, acted⟩ := stage_act_eq_ok_iff.1 staged
    exact ⟨a, found, Action.booked acted⟩

/-- A run in which the delegate of one escrow owns another, in another token. -/
def sideline : List Step :=
  [.issue (.wallet (.ofSeed 1)) .usdc ⟨100⟩,
    .issue (.wallet (.ofSeed 200)) ⟨.ofSeed 7, 6⟩ ⟨50⟩,
    .submit ⟨.ofSeed 1, .create .usdc 0 .unlimited⟩,
    .submit ⟨.ofSeed 200, .create ⟨.ofSeed 7, 6⟩ 0 .unlimited⟩,
    .submit ⟨.ofSeed 1, .act (.ofSeed 1) (.deposit ⟨60⟩)⟩,
    .submit ⟨.ofSeed 200, .act (.ofSeed 200) (.deposit ⟨30⟩)⟩,
    .submit ⟨.ofSeed 1, .act (.ofSeed 1) (.delegate .trading (.ofSeed 200))⟩,
    .setTime ⟨300⟩]

/-- When the delegate then trades, its wallet gets 20 units in the token of the vault that
pays; what it has of its own token stays, and so does its own escrow. -/
theorem sideline_trade :
    let l := (Ledger.fresh .standard 8).run sideline
    let i : Signed := ⟨.ofSeed 200, .act (.ofSeed 1) (.trade ⟨20⟩ 0 ⟨300⟩)⟩
    (l.submit i).2 = .ok ⟨6, .ofSeed 1, ⟨40⟩, 1⟩ ∧
      (l.submit i).1.escrow? (.ofSeed 200) = l.escrow? (.ofSeed 200) ∧
      ((l.submit i).1.custody.balance (.wallet (.ofSeed 200)) Mint.usdc.id).toNat = 20 ∧
      (l.submit i).1.custody.balance (.wallet (.ofSeed 200)) (.ofSeed 7) = ⟨20⟩ ∧
      (l.submit i).1.custody.transfers = 3 := by
  intro l i
  have told : (l.submit i).2.toOption = some ⟨6, .ofSeed 1, ⟨40⟩, 1⟩ := by decide +kernel
  have accepted : (l.submit i).2 = .ok ⟨6, .ofSeed 1, ⟨40⟩, 1⟩ := by
    rcases e : (l.submit i).2 with f | r
    · rw [e] at told
      cases told
    · rw [e] at told
      exact congrArg Except.ok (Option.some.inj told)
  have reached : (Ledger.fresh .standard 8).run sideline = l := rfl
  have submitted : l.submit i = ((l.submit i).1, .ok ⟨6, .ofSeed 1, ⟨40⟩, 1⟩) := by
    rw [← accepted]
  obtain ⟨b, e, found, -, frame, tells, follows, acts⟩ := accepted_exactly reached submitted
  obtain ⟨a, before, booked⟩ := acts (.ofSeed 1) (.trade ⟨20⟩ 0 ⟨300⟩) rfl
  have token : a.mint.id = Mint.usdc.id := by
    have known : (l.escrow? (.ofSeed 1)).map (fun a => a.mint.id) = some Mint.usdc.id := by
      decide +kernel
    rw [before] at known
    exact Option.some.inj known
  have old : l.onRecord i.target = ⟨60⟩ := by decide +kernel
  have new : b.balance = ⟨40⟩ := (congrArg Receipt.balance tells.receipt).symm
  have purse : l.custody.balance (.wallet (.ofSeed 200)) Mint.usdc.id = 0 := by decide +kernel
  have own : l.custody.balance (.wallet (.ofSeed 200)) (.ofSeed 7) = ⟨20⟩ := by decide +kernel
  have count : l.custody.transfers = 2 := by decide +kernel
  rw [booked.terms.mint, token, old, new] at follows
  refine ⟨accepted, frame.others _ (by decide +kernel), ?_, ?_, ?_⟩
  · have received := follows.wallet
    have sixty : (⟨60⟩ : Amount).toNat = 60 := rfl
    have forty : (⟨40⟩ : Amount).toNat = 40 := rfl
    rw [purse, sixty, forty, Amount.toNat_zero] at received
    show ((l.submit i).1.custody.balance (.wallet i.signer) Mint.usdc.id).toNat = 20
    omega
  · rw [follows.others _ _ (by decide +kernel), own]
  · rw [follows.counts.word, count]
    rfl

end Ledger

end DelegatedEscrow
