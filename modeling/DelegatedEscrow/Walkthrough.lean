/-
DelegatedEscrow/Walkthrough.lean

A guided tour of an escrow's life, told line by line: funding, delegation behind
the time-lock, spending by delegates, a replay that is refused, an emergency, and
the end.  Each scenario starts on a ledger of its own with devnet limits.

A scenario knows which of its instructions will be accepted.  If one turns out
otherwise, the tour ends in a `Mishap`.
-/
import DelegatedEscrow.Ledger.Step

namespace DelegatedEscrow.Walkthrough

/-- An instruction that did not turn out as told. -/
inductive Mishap where
  | limits (fault : LimitsFault)
  | custody (fault : CustodyFault)
  | refused (fault : Fault)
  | accepted (receipt : Receipt)
deriving DecidableEq, Repr

def Mishap.message : Mishap → String
  | limits f => f.message
  | custody f => f.message
  | refused f => f.message
  | accepted r => s!"Unexpectedly accepted as event {r.eventId.toNat}"

/-- A part of the tour, on a ledger that it changes. -/
abbrev Tour := StateT Ledger (Except Mishap)

/-- Submits an instruction that will be accepted. -/
def accepted (signer escrow : Identity) (action : Action) : Tour Receipt := fun l =>
  match l.submit ⟨signer, .act escrow action⟩ with
  | (l, .ok r) => .ok (r, l)
  | (_, .error f) => .error (.refused f)

/-- Submits an instruction that will be refused, and tells why. -/
def refused (signer : Identity) (i : Instruction) : Tour String := fun l =>
  match l.submit ⟨signer, i⟩ with
  | (_, .ok r) => .error (.accepted r)
  | (l, .error f) => .ok (f.message, l)

def setTime (secs : Seconds) : Tour Unit := modify fun l => l.setTime ⟨secs⟩

/-- Reads something off the ledger that is there to be read. -/
def look {α : Type} (read : Ledger → Except Fault α) : Tour α := fun l =>
  match read l with
  | .ok a => .ok (a, l)
  | .error f => .error (.refused f)

/-- A ledger on which `owner` has funds in the wallet and a new escrow. -/
def stage (owner : Identity) (wallet ceiling : Amount) : Except Mishap Ledger := do
  let l ← (Ledger.start Environment.devnet.limits Ledger.defaultRetention).mapError .limits
  let (l, issued) := l.issue (.wallet owner) .usdc wallet
  issued.mapError .custody
  match l.submit ⟨owner, .create .usdc ceiling .unlimited⟩ with
  | (l, .ok _) => return l
  | (_, .error f) => throw (.refused f)

/-- An amount in whole dollars. -/
def shown (a : Amount) : String :=
  "$" ++ ((Mint.usdc.display? a).map Decimal.text).getD (toString a)

/-! ### The cast -/

def alice : Identity := .ofSeed 1

def platform : Identity := .ofSeed 100

def trader : Identity := .ofSeed 200

/-- Tells a scenario in which Alice has `funds` dollars in her wallet and an
escrow for up to `ceiling` dollars. -/
def scenario (number : Nat) (title : String) (funds ceiling : UInt64)
    (tale : Tour (List String)) : Except Mishap (List String) := do
  let l ← stage alice (Mint.dollars funds) (Mint.dollars ceiling)
  let lines ← tale.run' l
  return [s!"Scenario {number}: {title}", ""] ++ lines.map ("  " ++ ·) ++ [""]

/-! ### The scenarios -/

/-- Alice pays in, runs into the ceiling, and takes some back. -/
def funding : Except Mishap (List String) :=
  scenario 1 "Deposit and Withdraw" 5000 1000 do
    let _ ← accepted alice alice (.deposit (Mint.dollars 1000))
    let above ← refused alice (.act alice (.deposit (Mint.dollars 1)))
    let back ← accepted alice alice (.withdraw (Mint.dollars 250))
    let reconciled ← look fun l => l.reconciles alice
    return [
      "Alice deposits $1,000 (max balance $1,000)",
      s!"One more dollar: {above}",
      s!"Alice withdraws $250, escrow balance: {shown back.balance}",
      s!"Vault reconciles: {reconciled}"]

/-- Delegates wait out their time-locks and then spend with increasing nonces. -/
def delegation : Except Mishap (List String) :=
  scenario 2 "Delegated Trading" 10000 10000 do
    let _ ← accepted alice alice (.deposit (Mint.dollars 10000))
    let _ ← accepted alice alice (.delegate .platform platform)
    let _ ← accepted alice alice (.delegate .trading trader)
    setTime 10
    let early ← refused trader (.act alice (.trade (Mint.dollars 100) 0 ⟨100⟩))
    let blocked ← refused alice (.act alice (.withdraw (Mint.dollars 100)))
    setTime 300
    let trade ← accepted trader alice (.trade (Mint.dollars 100) 0 ⟨360⟩)
    let fee ← accepted platform alice (.collectFee (Mint.dollars 25) trade.nonce)
    let a ← look fun l => l.escrow alice
    let traded := shown a.totals.traded
    let fees := shown a.totals.fees
    return [
      s!"Alice delegates platform {platform.short} and trading {trader.short}",
      s!"t=10 trade: {early}",
      s!"Owner withdraw while delegated: {blocked}",
      s!"t=300 trade $100 with nonce 0, next nonce {trade.nonce.toNat}",
      s!"Platform collects $25 fee, next nonce {fee.nonce.toNat}",
      s!"Traded {traded}, fees {fees}, balance {shown a.balance}"]

/-- A captured instruction is submitted a second time. -/
def replay : Except Mishap (List String) :=
  scenario 3 "Replay Rejected" 1000 1000 do
    let _ ← accepted alice alice (.deposit (Mint.dollars 1000))
    let _ ← accepted alice alice (.delegate .trading trader)
    setTime 300
    let action : Action := .trade (Mint.dollars 50) 0 ⟨400⟩
    let _ ← accepted trader alice action
    modify fun l => l.advance 1
    let again ← refused trader (.act alice action)
    return ["First submission accepted", s!"Replay at t=301: {again}"]

/-- A pause freezes the delegate and opens the emergency exit. -/
def emergency : Except Mishap (List String) :=
  scenario 4 "Emergency Pause" 2000 2000 do
    let _ ← accepted alice alice (.deposit (Mint.dollars 2000))
    let _ ← accepted alice alice (.delegate .trading trader)
    setTime 500
    let _ ← accepted alice alice .pause
    let frozen ← refused trader (.act alice (.trade (Mint.dollars 10) 0 ⟨600⟩))
    let _ ← refused alice (.act alice (.revoke .trading))
    let _ ← refused alice (.act alice .unpause)
    setTime 800
    let _ ← accepted alice alice .unpause
    let _ ← accepted alice alice (.revoke .trading)
    let _ ← accepted alice alice .pause
    let out ← accepted alice alice (.emergencyWithdraw (Mint.dollars 2000))
    return [
      "Alice pauses at t=500",
      s!"Trade while paused: {frozen}",
      "Unpause inside cooldown rejected",
      s!"Emergency withdraw $2,000, balance {shown out.balance}"]

/-- What the newest event has to tell about dust. -/
def sweepings (j : Journal) : List String :=
  match (j.recent 1).map Event.payload with
  | [.closed dust] => [s!"Closed, {dust} units of dust swept back to Alice"]
  | _ => []

/-- One line on an escrow at the end. -/
def epitaph (a : Account) : String :=
  s!"{a.owner.short} {a.status.label}, " ++
    s!"deposited {a.totals.deposited}, withdrawn {a.totals.withdrawn}"

/-- A funded escrow cannot be closed, and a closed one cannot be opened again. -/
def closing : Except Mishap (List String) :=
  scenario 5 "Close" 100 100 do
    let _ ← accepted alice alice (.deposit (Mint.dollars 100))
    let full ← refused alice (.act alice .close)
    let _ ← accepted alice alice (.withdraw ⟨(Mint.dollars 100).units - 5⟩)
    let _ ← accepted alice alice .close
    let swept := sweepings (← get).journal
    let a ← look fun l => l.escrow alice
    let reopen ← refused alice (.create .usdc 0 .unlimited)
    let l ← get
    return [s!"Close with $100 inside: {full}"] ++ swept ++
      [s!"Status: {a.status.label}", s!"Re-initialize: {reopen}"] ++
      l.escrows.toList.map (fun e => epitaph e.2) ++
      [s!"Events generated: {l.journal.events.length}"]

/-! ### The tour -/

/-- The lines of the whole tour. -/
def lines : Except Mishap (List String) := do
  let told ← [funding, delegation, replay, emergency, closing].mapM id
  return ["Escrow Core Simulation", "Single Owner, Dual Authority, Full Lifecycle", ""] ++
    told.flatten ++ ["", "All simulations completed successfully."]

end DelegatedEscrow.Walkthrough
