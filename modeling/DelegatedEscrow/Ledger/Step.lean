/-
DelegatedEscrow/Ledger/Step.lean

All that can happen to a ledger: instructions, alone or in a batch; readings of
the clock, which may also go back; and what others do with tokens in custody,
which no escrow has a say in.  A run is a sequence of such steps.
-/
import DelegatedEscrow.Ledger

namespace DelegatedEscrow.Ledger

/-- Something that happens to a ledger. -/
inductive Step where
  | submit (s : Signed)
  | submitAll (batch : List Signed)
  | setTime (t : Timestamp)
  | advance (d : Seconds)
  | issue (h : Holder) (mint : Mint) (a : Amount)
  | transfer (source target : Holder) (mint : Mint) (a : Amount)
  | arm (reason : String)
deriving DecidableEq, Repr

/-- Credits new tokens to a holder, or leaves the ledger as it is. -/
def issue (l : Ledger) (h : Holder) (mint : Mint) (a : Amount) :
    Ledger × Except CustodyFault Unit :=
  match l.custody.issue h mint a with
  | .ok custody => ({ l with custody }, .ok ())
  | .error f => (l, .error f)

/-- Moves tokens past the escrows. -/
def transfer (l : Ledger) (source target : Holder) (mint : Mint) (a : Amount) :
    Ledger × Except CustodyFault Unit :=
  let (custody, result) := l.custody.transfer source target mint a
  ({ l with custody }, result)

/-- Arms a failure for the next transfer. -/
def arm (l : Ledger) (reason : String) : Ledger := { l with custody := l.custody.arm reason }

/-- The ledger after one step, whether or not the step was refused. -/
def step (l : Ledger) : Step → Ledger
  | .submit s => (l.submit s).1
  | .submitAll batch => (l.submitAll batch).1
  | .setTime t => l.setTime t
  | .advance d => l.advance d
  | .issue h mint a => (l.issue h mint a).1
  | .transfer source target mint a => (l.transfer source target mint a).1
  | .arm reason => l.arm reason

/-- The ledger after a run. -/
def run (l : Ledger) (steps : List Step) : Ledger := steps.foldl step l

end DelegatedEscrow.Ledger
