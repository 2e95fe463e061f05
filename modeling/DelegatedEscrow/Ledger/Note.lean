/-
DelegatedEscrow/Ledger/Note.lean

What an operator sees of a ledger at work: a note when an instruction arrives,
and one when it was refused or took effect.  The notes are made from the
instruction and its outcome; they have no influence on either.
-/
import DelegatedEscrow.Ledger

namespace DelegatedEscrow

/-- How much a note matters. -/
inductive Note.Level where
  | debug
  | info
  | warn
deriving DecidableEq, Repr

/-- A note for the operator: what happened, and named details in order. -/
structure Note where
  level : Note.Level
  message : String
  details : List (String × String)
deriving DecidableEq, Repr

namespace Note

/-- An instruction has arrived. -/
def arrival (s : Signed) : Note where
  level := .debug
  message := "dispatching instruction"
  details :=
    [("op", s.instruction.name), ("signer", s.signer.short),
      ("required", s.instruction.role.text)]

/-- An event has been announced. -/
def announced (e : Event) : Note where
  level := .debug
  message := "event emitted"
  details :=
    [("event", toString e.id.toNat), ("kind", e.payload.label), ("escrow", e.escrow.short)]

/-- An instruction took effect. -/
def applied (s : Signed) (r : Receipt) : Note where
  level := .info
  message := "transition applied"
  details :=
    [("op", s.instruction.name), ("escrow", r.escrow.short),
      ("nonce", toString r.nonce.toNat), ("balance", toString r.balance)]

/-- An instruction was refused. -/
def refused (s : Signed) (f : Fault) : Note where
  level := .warn
  message := "instruction rejected"
  details :=
    [("op", s.instruction.name), ("signer", s.signer.short), ("error", f.message)]

/-- A ledger was not started. -/
def limitsRefused (f : LimitsFault) : Note where
  level := .warn
  message := "engine config rejected"
  details := [("error", f.message)]

/-- The notes on an outcome, read off the ledger afterwards. -/
def ofOutcome (s : Signed) : Ledger × Except Fault Receipt → List Note
  | (_, .error f) => [refused s f]
  | (after, .ok r) => after.journal.events.getLast?.toList.map announced ++ [applied s r]

/-- The notes on a batch: arrival and outcome of each instruction, up to the
first one refused. -/
def ofBatch (l : Ledger) : List Signed → List Note
  | [] => []
  | s :: rest =>
    let outcome := l.submit s
    arrival s :: ofOutcome s outcome ++
      match outcome.2 with
      | .error _ => []
      | .ok _ => ofBatch outcome.1 rest

end Note

end DelegatedEscrow
