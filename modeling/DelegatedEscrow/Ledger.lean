/-
DelegatedEscrow/Ledger.lean

The ledger: the escrows by owner, custody of the tokens, the journal, the clock
and the limits.

`Ledger.submit` is the one way in.  It stages a transition, moves the tokens,
and only then writes the record and announces the event; a fault anywhere before
that leaves records, journal and clock as they were.
-/
import DelegatedEscrow.Journal
import DelegatedEscrow.Transition

namespace DelegatedEscrow

/-- The state of a ledger. -/
structure Ledger where
  limits : Limits
  escrows : Std.ExtTreeMap Identity Account
  custody : Custody
  journal : Journal
  now : Timestamp

/-- What the submitter of an accepted instruction gets. -/
structure Receipt where
  eventId : EventId
  escrow : Identity
  balance : Amount
  nonce : Nonce
deriving DecidableEq, Repr

namespace Ledger

/-- How many events a journal keeps if nobody says otherwise. -/
def defaultRetention : Nat := 100000

/-- A ledger without escrows, under limits that nobody has checked. -/
def fresh (limits : Limits) (retention : Nat) : Ledger where
  limits
  escrows := ∅
  custody := .empty
  journal := .empty retention
  now := .epoch

/-- A ledger without escrows, if its limits do not contradict themselves. -/
def start (limits : Limits) (retention : Nat) : Except LimitsFault Ledger := do
  limits.check
  return fresh limits retention

/-! ### Clock -/

def setTime (l : Ledger) (t : Timestamp) : Ledger := { l with now := t }

def advance (l : Ledger) (d : Seconds) : Ledger := { l with now := l.now.plus d }

/-! ### Reading -/

/-- The escrow of an owner. -/
def escrow? (l : Ledger) (owner : Identity) : Option Account := l.escrows[owner]?

/-- The escrow of an owner, or the fault of its absence. -/
def escrow (l : Ledger) (owner : Identity) : Except Fault Account :=
  demand (l.escrow? owner) (.notFound owner)

/-- The vault holds exactly the balance on record. -/
def reconciles (l : Ledger) (owner : Identity) : Except Fault Bool := do
  let a ← l.escrow owner
  return l.custody.balanceIn (.vault owner) a.mint = a.balance

def setting (l : Ledger) : Setting := ⟨l.limits, l.now⟩

/-! ### Writing -/

/-- What a signed instruction would do. -/
def stage (l : Ledger) (s : Signed) : Except Fault Transition :=
  match s.instruction with
  | .create mint ceiling caps => do
    require (l.escrow? s.signer = none) (.alreadyOpened s.signer)
    l.setting.create s.signer mint ceiling caps
  | .act owner action => do
    let a ← l.escrow owner
    action.stage l.setting s.signer a

/-- Makes a transition take effect, if its tokens can be moved. -/
def commit (l : Ledger) (t : Transition) : Ledger × Except Fault Receipt :=
  match t.settle l.custody with
  | (custody, .error f) => ({ l with custody }, .error (.custody f))
  | (custody, .ok ()) =>
    let a := t.account
    let (journal, eventId) := l.journal.record l.now a.owner a.nonce t.payload
    ({ l with custody, journal, escrows := l.escrows.insert a.owner a },
      .ok ⟨eventId, a.owner, a.balance, a.nonce⟩)

/-- Carries out one signed instruction, or refuses it. -/
def submit (l : Ledger) (s : Signed) : Ledger × Except Fault Receipt :=
  match l.stage s with
  | .error f => (l, .error f)
  | .ok t => l.commit t

/-- Carries out instructions in order and stops at the first one refused, which
is reported with its position.  Those before it remain carried out. -/
def submitAll (l : Ledger) : List Signed → Ledger × Except (Nat × Fault) (List Receipt)
  | [] => (l, .ok [])
  | s :: rest =>
    match l.submit s with
    | (l, .error f) => (l, .error (0, f))
    | (l, .ok receipt) =>
      match l.submitAll rest with
      | (l, .error (i, f)) => (l, .error (i + 1, f))
      | (l, .ok receipts) => (l, .ok (receipt :: receipts))

end Ledger

end DelegatedEscrow
