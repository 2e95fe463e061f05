/-
DelegatedEscrow/Custody.lean

Custody is where the tokens are.  A holder is somebody's wallet or the vault
behind somebody's escrow, and each holder has one balance for each token.  A
balance that was never credited is zero.

Who asks for a token names its mint.  The books are kept by the key of the mint
alone, so that two mints with one key are one token.

`transfer` moves tokens between two holders, both sides or neither.  A failure
can be armed beforehand; it stops the next transfer, whatever that is, and is
then spent.  Transfers that go through are counted in a word, which starts over
after the last number it has.
-/
import DelegatedEscrow.Guard
import DelegatedEscrow.Mint

namespace DelegatedEscrow

/-- Something that can hold tokens. -/
inductive Holder where
  /-- The wallet of a person or a service. -/
  | wallet (i : Identity)
  /-- The vault behind the escrow of this owner. -/
  | vault (i : Identity)
deriving DecidableEq, Repr

namespace Holder

def isVault : Holder → Bool
  | wallet _ => false
  | vault _ => true

/-- Whose wallet, or whose vault. -/
def identity : Holder → Identity
  | wallet i | vault i => i

/-- A holder in full, with the bytes of its key in decimal. -/
def text (h : Holder) : String :=
  let bytes := String.intercalate ", " (h.identity.bytes.map fun b => toString b.toNat)
  (if h.isVault then "Vault" else "Wallet") ++ "(Identity([" ++ bytes ++ "]))"

end Holder

/-- One holder's account in one token. -/
structure Purse where
  holder : Holder
  token : Identity
deriving DecidableEq, Repr

namespace Purse

/-- Wallets come before vaults; then the holder decides, and last the token. -/
def order : Purse → Purse → Ordering :=
  compareLex (compareOn fun p => p.holder.isVault)
    (compareLex (compareOn fun p => p.holder.identity) (compareOn Purse.token))

instance : Ord Purse := ⟨order⟩

instance : Std.TransOrd Purse := inferInstanceAs (Std.TransCmp (compareLex _ (compareLex _ _)))

theorem eq_of_order_eq {p q : Purse} (h : order p q = .eq) : p = q := by
  simp only [order, compareLex_eq_eq, compareOn, Std.LawfulEqCmp.compare_eq_iff_eq] at h
  rcases p with ⟨⟨i⟩ | ⟨i⟩, t⟩ <;> rcases q with ⟨⟨j⟩ | ⟨j⟩, u⟩ <;>
    simp_all [Holder.isVault, Holder.identity]

instance : Std.LawfulEqOrd Purse := ⟨eq_of_order_eq⟩

end Purse

/-- Why tokens did not move. -/
inductive CustodyFault where
  | insufficientFunds (holder : Holder) (available requested : Amount)
  | overflow (holder : Holder)
  | rejected (reason : String)
deriving DecidableEq, Repr

/-- The fault as it is reported. -/
def CustodyFault.message : CustodyFault → String
  | insufficientFunds h available requested =>
    s!"Insufficient funds in {h.text}: available {available}, requested {requested}"
  | overflow h => s!"Balance overflow crediting {h.text}"
  | rejected reason => s!"Transfer rejected: {reason}"

/-- All balances, and how often tokens have moved. -/
structure Custody where
  balances : Std.ExtTreeMap Purse Amount
  /-- The number of transfers that went through, as far as a word can count. -/
  transfers : UInt64
  /-- The reason with which the next transfer will be stopped. -/
  armed : Option String

namespace Custody

/-- Custody of nothing. -/
def empty : Custody := ⟨∅, 0, none⟩

/-- What the books say of a holder under the key of a token. -/
def balance (c : Custody) (h : Holder) (token : Identity) : Amount :=
  c.balances.getD ⟨h, token⟩ 0

/-- What a holder has of the token of a mint. -/
def balanceIn (c : Custody) (h : Holder) (mint : Mint) : Amount := c.balance h mint.id

/-- Sets what the books say of a holder under the key of a token. -/
def put (c : Custody) (h : Holder) (token : Identity) (a : Amount) : Custody :=
  { c with balances := c.balances.insert ⟨h, token⟩ a }

/-- Arms a failure for the next transfer. -/
def arm (c : Custody) (reason : String) : Custody := { c with armed := some reason }

/-- Credits new tokens to a holder. -/
def issue (c : Custody) (h : Holder) (mint : Mint) (a : Amount) :
    Except CustodyFault Custody := do
  let credited ← demand ((c.balanceIn h mint).add? a) (.overflow h)
  return c.put h mint.id credited

/-- Both sides of a transfer.  A holder that pays itself keeps its balance, but
has to have the amount. -/
def move (c : Custody) (source target : Holder) (mint : Mint) (a : Amount) :
    Except CustodyFault Custody := do
  let available := c.balanceIn source mint
  let debited ← demand (available.sub? a) (.insufficientFunds source available a)
  if source = target then
    return c
  else
    let credited ← demand ((c.balanceIn target mint).add? a) (.overflow target)
    return (c.put source mint.id debited).put target mint.id credited

/-- Moves tokens from one holder to another.  An armed failure is spent first;
any other fault leaves custody as it was. -/
def transfer (c : Custody) (source target : Holder) (mint : Mint) (a : Amount) :
    Custody × Except CustodyFault Unit :=
  match c.armed with
  | some reason => ({ c with armed := none }, .error (.rejected reason))
  | none =>
    match c.move source target mint a with
    | .error f => (c, .error f)
    | .ok moved => ({ moved with transfers := c.transfers + 1 }, .ok ())

/-! ### Balances after a write -/

theorem balance_put (c : Custody) (h k : Holder) (token other : Identity) (a : Amount) :
    (c.put h token a).balance k other =
      if h = k ∧ token = other then a else c.balance k other := by
  have e : (⟨h, token⟩ : Purse) = ⟨k, other⟩ ↔ h = k ∧ token = other := by simp
  simp only [balance, put, Std.ExtTreeMap.getD_insert, Std.LawfulEqCmp.compare_eq_iff_eq, e]

end Custody

end DelegatedEscrow
