/-
DelegatedEscrow/Proofs/Audit.lean

The events of an escrow are a complete account of it.  Reading them one after the
other, an auditor who has never seen the record can write it down: `rebuild` is a
fold over the events, and it never looks at the ledger.

A rule changes the record in one place and words its event in another, and nothing
forces the two to agree.  That they do is a simulation, with one square for each
rule (`Action.audit_stage`):

            record  -------- rule -------->  record
              |                                |
              |            event               |
              v                                v
            audit   ------ read event ---->  audit

The one thing that no event tells is what caps an escrow was opened with.
-/
import DelegatedEscrow.Proofs.Announcements

namespace DelegatedEscrow

/-! ### Reading events -/

/-- The totals after an amount has gone in or out by a path. -/
def Totals.book (t : Totals) (amount : Amount) : Flow → Option Totals
  | .deposit => (t.deposited.add? amount).map fun deposited => { t with deposited }
  | .withdrawal | .emergencyWithdrawal =>
    (t.withdrawn.add? amount).map fun withdrawn => { t with withdrawn }
  | .subscriptionFee => (t.fees.add? amount).map fun fees => { t with fees }
  | .tradeWithdrawal => (t.traded.add? amount).map fun traded => { t with traded }

/-- The record after something has happened to it, but for the nonce. -/
def Account.amended (a : Account) (time : Timestamp) : Payload → Option Account
  | .opened .. => none
  | .paused => some { a with status := .paused, pausedAt := some time }
  | .unpaused => some { a with status := .active }
  | .lifetimeSet secs => some { a with lifetime := if secs = 0 then none else some secs }
  | .closed swept =>
    (a.totals.book swept .withdrawal).map fun totals =>
      { a with status := .closed, balance := 0, totals }
  | .delegated k d _ => some (a.setSlot k (.delegated d time))
  | .revoked k _ => some (a.setSlot k .empty)
  | .funds flow change =>
    (a.totals.book change.amount flow).map fun totals =>
      { a with balance := change.newBalance, totals }

/-- Reads one more event of an escrow.  The first one has to say that it was opened,
and no other may. -/
def Event.read (e : Event) : Option Account → Option Account
  | none =>
    match e.payload with
    | .opened mint ceiling =>
      some { Account.new e.escrow mint ceiling .unlimited e.time with nonce := e.nonce }
    | _ => none
  | some a => (a.amended e.time e.payload).map fun b => { b with nonce := e.nonce }

/-- The record of the escrow of an owner, rebuilt from events alone. -/
def rebuild (owner : Identity) (events : List Event) : Option Account :=
  (events.filter fun e => e.escrow = owner).foldl (fun seen e => e.read seen) none

/-- What the events can tell of a record: everything but its caps. -/
def Account.uncapped (a : Account) : Account := { a with caps := .unlimited }

theorem rebuild_concat {owner : Identity} {events : List Event} {e : Event} :
    rebuild owner (events ++ [e]) =
      if e.escrow = owner then e.read (rebuild owner events) else rebuild owner events := by
  rw [rebuild, List.filter_append, List.foldl_append]
  by_cases here : e.escrow = owner
  · rw [if_pos here, List.filter_cons_of_pos (by simpa using here)]
    rfl
  · rw [if_neg here, List.filter_cons_of_neg (by simpa using here)]
    rfl

/-! ### Booking -/

namespace Totals

variable {t : Totals} {amount sum : Amount}

theorem book_deposit (h : sum.toNat = t.deposited.toNat + amount.toNat) :
    t.book amount .deposit = some { t with deposited := sum } := by
  rw [book, Amount.add?_eq_some_iff.2 h]
  rfl

theorem book_withdrawn {flow : Flow} (out : flow = .withdrawal ∨ flow = .emergencyWithdrawal)
    (h : sum.toNat = t.withdrawn.toNat + amount.toNat) :
    t.book amount flow = some { t with withdrawn := sum } := by
  rcases out with rfl | rfl <;> rw [book, Amount.add?_eq_some_iff.2 h] <;> rfl

theorem book_fee (h : sum.toNat = t.fees.toNat + amount.toNat) :
    t.book amount .subscriptionFee = some { t with fees := sum } := by
  rw [book, Amount.add?_eq_some_iff.2 h]
  rfl

theorem book_trade (h : sum.toNat = t.traded.toNat + amount.toNat) :
    t.book amount .tradeWithdrawal = some { t with traded := sum } := by
  rw [book, Amount.add?_eq_some_iff.2 h]
  rfl

end Totals

namespace Account

variable {a : Account} {now time : Timestamp} {amount balance : Amount} {flow : Flow}
variable {totals : Totals} {party signer : Identity} {t : Transition} {what : Payload}

/-- Caps play no part in reading an event. -/
theorem amended_uncapped :
    a.uncapped.amended now what = (a.amended now what).map uncapped := by
  cases what with
  | delegated k d usableAt => cases k <;> rfl
  | revoked k d => cases k <;> rfl
  | closed swept =>
    show Option.map _ (a.totals.book swept .withdrawal) = _
    rw [amended, Option.map_map]
    rfl
  | funds flow change =>
    show Option.map _ (a.totals.book change.amount flow) = _
    rw [amended, Option.map_map]
    rfl
  | _ => rfl

/-! ### The squares -/

/-- A movement of funds that is booked, whatever the nonce afterwards. -/
theorem audit_funds {n : Nonce} (booked : a.totals.book amount flow = some totals) :
    (a.amended now (.funds flow ⟨amount, balance, party⟩)).map (fun b => { b with nonce := n }) =
      some { a with balance, totals, nonce := n } := by
  rw [amended, booked]
  rfl

/-- Both withdrawals of the owner are booked under one total. -/
theorem audit_takeBack (out : flow = .withdrawal ∨ flow = .emergencyWithdrawal)
    (h : a.takeBack signer flow amount = .ok t) :
    (a.amended now t.payload).map (fun b => { b with nonce := t.account.nonce }) =
      some t.account := by
  obtain ⟨-, -, balance, -, withdrawn, sum, rfl⟩ := takeBack_eq_ok_iff.1 h
  exact audit_funds (Totals.book_withdrawn out sum)

end Account

/-- **One rule.**  The event of an accepted action says what it has made of the
record. -/
theorem Action.audit_stage {s : Setting} {signer : Identity} {a : Account} {action : Action}
    {t : Transition} (h : action.stage s signer a = .ok t) :
    (a.amended s.now t.payload).map (fun b => { b with nonce := t.account.nonce }) =
      some t.account := by
  cases action with
  | deposit amount =>
    obtain ⟨-, -, -, -, balance, -, -, deposited, sum, -, rfl⟩ := Account.deposit_eq_ok_iff.1 h
    exact Account.audit_funds (Totals.book_deposit sum)
  | withdraw amount =>
    obtain ⟨-, -, taken⟩ := Account.withdraw_eq_ok_iff.1 h
    exact Account.audit_takeBack (.inl rfl) taken
  | emergencyWithdraw amount =>
    obtain ⟨-, -, taken⟩ := Account.emergencyWithdraw_eq_ok_iff.1 h
    exact Account.audit_takeBack (.inr rfl) taken
  | collectFee amount nonce =>
    obtain ⟨-, -, balance, -, fees, sum, -, rfl⟩ := Account.collectFee_eq_ok_iff.1 h
    exact Account.audit_funds (Totals.book_fee sum)
  | trade amount nonce deadline =>
    obtain ⟨-, -, -, traded, sum, -, balance, -, -, rfl⟩ := Account.trade_eq_ok_iff.1 h
    exact Account.audit_funds (Totals.book_trade sum)
  | delegate k d =>
    obtain ⟨-, -, -, -, -, rfl⟩ := Account.delegate_eq_ok_iff.1 h
    rfl
  | revoke k =>
    obtain ⟨-, -, d, -, rfl⟩ := Account.revoke_eq_ok_iff.1 h
    rfl
  | pause =>
    obtain ⟨-, -, rfl⟩ := Account.pause_eq_ok_iff.1 h
    rfl
  | unpause =>
    obtain ⟨-, -, -, rfl⟩ := Account.unpause_eq_ok_iff.1 h
    rfl
  | setLifetime secs =>
    -- A span that is accepted is zero or positive.
    obtain ⟨-, -, accepted, rfl⟩ := Account.setLifetime_eq_ok_iff.1 h
    have never : secs = 0 ↔ ¬ 0 < secs := by
      rw [← Int64.toInt_inj, Int64.lt_iff_toInt_lt]
      rw [Int64.le_iff_toInt_le] at accepted
      omega
    show some { a with lifetime := if secs = 0 then none else some secs } = _
    by_cases positive : 0 < secs
    · rw [if_neg (mt never.1 (not_not_intro positive))]
      simp [Transition.silent, positive]
    · rw [if_pos (never.2 positive)]
      simp [Transition.silent, positive]
  | close =>
    obtain ⟨-, -, -, withdrawn, sum, rfl⟩ := Account.close_eq_ok_iff.1 h
    show Option.map _ (Option.map _ (a.totals.book a.balance .withdrawal)) = _
    rw [Totals.book_withdrawn (.inl rfl) sum]
    rfl

namespace Ledger

variable {l : Ledger} {past : List Moment} {i : Signed} {t : Transition} {c : Custody}
variable {limits : Limits} {retention : Nat} {P : Account → Prop}

/-- **One instruction.**  Reading its event makes of the old record, as far as it is
known, the new one. -/
theorem read_announcement (h : l.Records limits P) (staged : l.stage i = .ok t) :
    (l.announcement t).read ((l.escrow? t.account.owner).map Account.uncapped) =
      some t.account.uncapped := by
  rw [h.target staged]
  obtain ⟨signer, ⟨mint, ceiling, caps⟩ | ⟨owner, action⟩⟩ := i
  · obtain ⟨absent, created⟩ := stage_create_eq_ok_iff.1 staged
    obtain ⟨-, -, granted, -, rfl⟩ := Setting.create_eq_ok_iff.1 created
    have none : l.escrow? (Signed.target ⟨signer, .create mint ceiling caps⟩) = none := absent
    rw [none]
    rfl
  · obtain ⟨a, found, acted⟩ := stage_act_eq_ok_iff.1 staged
    have before : l.escrow? (Signed.target ⟨signer, .act owner action⟩) = some a := found
    have square := congrArg (Option.map Account.uncapped) (Action.audit_stage acted)
    rw [Option.map_map] at square
    rw [before]
    show Option.map _ (a.uncapped.amended l.now t.payload) = _
    rw [Account.amended_uncapped, Option.map_map]
    exact square

/-- **A whole run.**  All that was announced of an escrow, read from the start, gives
its record. -/
theorem Path.rebuild_announced (inv : Account.Invariant limits P)
    (p : Path (Ledger.fresh limits retention) past l) (owner : Identity) :
    rebuild owner (announced past) = (l.escrow? owner).map Account.uncapped := by
  refine (Path.grow_records
    (Q := fun past l => rebuild owner (announced past) = (l.escrow? owner).map Account.uncapped)
    inv ?_ ?_ p).2
  · simp [escrow?, Ledger.fresh, announced, rebuild]
  · intro past l s single records rebuilt
    have outcome : Moment.Outcome ⟨l, s⟩ := Moment.outcome single
    rw [announced_concat]
    cases outcome with
    | nothing none kept =>
      have same : (l.step s).escrow? owner = l.escrow? owner := by
        rw [escrow?, escrow?, ← kept.1]
        rfl
      rw [announced?_of_none none, same, Option.toList_none, List.append_nil]
      exact rebuilt
    | effect i t c _ accepted staged _ after =>
      have written : l.step s = l.written c t := after
      rw [announced?_of_staged accepted staged, written, Option.toList_some, rebuild_concat,
        escrow?_written, rebuilt]
      show (if t.account.owner = owner then (l.announcement t).read _ else _) = _
      -- An event of another escrow is not read, as its record is not this one.
      by_cases here : t.account.owner = owner
      · subst here
        rw [if_pos rfl, if_pos rfl]
        exact read_announcement records staged
      · rw [if_neg here, if_neg here]

/-- **A complete account.**  As long as the journal has not had to drop an event, its
events rebuild the record of every escrow, and rebuild nothing where there is none. -/
theorem journal_rebuilds_records (limits : Limits) (retention : Nat) (steps : List Step)
    (kept : (accepted ((Ledger.fresh limits retention).trace steps)).length ≤ max 1 retention) :
    let l := (Ledger.fresh limits retention).run steps
    ∀ owner, rebuild owner l.journal.events = (l.escrow? owner).map Account.uncapped := by
  intro l owner
  have inv := Account.invariant_true limits
  have path : Path (Ledger.fresh limits retention) _ l := path_trace _ steps
  rw [path.journal_of_kept inv kept]
  exact path.rebuild_announced inv owner

/-- A run about two escrows.  One ends paused, with a delegate who has spent; the other
is closed with 5 units left, which are swept. -/
def season : List Step :=
  [.issue (.wallet (.ofSeed 1)) .usdc ⟨100⟩,
    .issue (.wallet (.ofSeed 2)) .usdc ⟨50⟩,
    .submit ⟨.ofSeed 1, .create .usdc 0 .unlimited⟩,
    .submit ⟨.ofSeed 2, .create .usdc 0 ⟨some ⟨80⟩, none⟩⟩,
    .submit ⟨.ofSeed 1, .act (.ofSeed 1) (.deposit ⟨60⟩)⟩,
    .submit ⟨.ofSeed 2, .act (.ofSeed 2) (.deposit ⟨50⟩)⟩,
    .submit ⟨.ofSeed 1, .act (.ofSeed 1) (.delegate .platform (.ofSeed 100))⟩,
    .submit ⟨.ofSeed 1, .act (.ofSeed 1) (.setLifetime 7200)⟩,
    .submit ⟨.ofSeed 2, .act (.ofSeed 2) (.withdraw ⟨45⟩)⟩,
    .setTime ⟨300⟩,
    .submit ⟨.ofSeed 100, .act (.ofSeed 1) (.collectFee ⟨10⟩ 0)⟩,
    .submit ⟨.ofSeed 2, .act (.ofSeed 2) .close⟩,
    .submit ⟨.ofSeed 1, .act (.ofSeed 1) .pause⟩]

/-- With a journal that has room for just these ten events, both records can be read
off them. -/
theorem season_rebuilt :
    let l := (Ledger.fresh .standard 10).run season
    l.journal.events.length = 10 ∧
      rebuild (.ofSeed 1) l.journal.events = (l.escrow? (.ofSeed 1)).map Account.uncapped ∧
      (l.escrow? (.ofSeed 1)).map Account.platform = some (.delegated (.ofSeed 100) ⟨0⟩) ∧
      rebuild (.ofSeed 2) l.journal.events = (l.escrow? (.ofSeed 2)).map Account.uncapped ∧
      (l.escrow? (.ofSeed 2)).map Account.totals = some ⟨⟨50⟩, ⟨50⟩, 0, 0⟩ := by
  intro l
  have kept : (accepted ((Ledger.fresh .standard 10).trace season)).length ≤ max 1 10 := by
    decide +kernel
  have rebuilt := journal_rebuilds_records .standard 10 season kept
  exact ⟨by decide +kernel, rebuilt (.ofSeed 1), by decide +kernel, rebuilt (.ofSeed 2),
    by decide +kernel⟩

end Ledger

end DelegatedEscrow
