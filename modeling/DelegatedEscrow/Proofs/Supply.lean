/-
DelegatedEscrow/Proofs/Supply.lean

The supply of a token.  What all wallets and all vaults hold of it together is what
was ever issued:

    Σ balances, over all holders  =  Σ amounts, over all issues that went through

Instructions and transfers move tokens, and neither create nor lose any.  This
follows from double entry: over all holders, the entry of an amount for one purse
adds up to the amount, so the two sides of a transfer cancel, whoever they are
(`supply_transfer`); a holder that pays itself is no exception.  There are finitely
many holders, since a key has 32 bytes, and the sum is over all of them.

A token is known by its key.  Custody gives the same answers for two mints exactly if
they have one key, whatever decimals they claim (`sameToken_iff`).
-/
import DelegatedEscrow.Proofs.Settlement
import DelegatedEscrow.Proofs.Trace
import Mathlib.Algebra.BigOperators.Group.Finset.Piecewise
import Mathlib.Algebra.GroupWithZero.Nat
import Mathlib.Data.FinEnum
import Mathlib.Data.Fintype.Vector

namespace DelegatedEscrow

/-! ### All holders -/

instance : Finite Identity := by
  let key : Identity → List.Vector UInt8 32 := fun i => ⟨i.bytes, i.length_bytes⟩
  refine Finite.of_injective key ?_
  intro i j same
  exact Identity.ext (congrArg Subtype.val same)

instance : Finite Holder := by
  refine Finite.of_injective (fun h => (h.isVault, h.identity)) ?_
  rintro (i | i) (j | j) same <;> simp_all [Holder.isVault, Holder.identity]

noncomputable instance : Fintype Holder := Fintype.ofFinite Holder

namespace Custody

variable {c d : Custody} {source target h : Holder} {mint : Mint} {token : Identity} {a : Amount}

/-- All that is held of a token, by anybody. -/
noncomputable def supply (c : Custody) (token : Identity) : Nat :=
  ∑ h : Holder, (c.balance h token).toNat

theorem supply_congr (same : ∀ h, d.balance h token = c.balance h token) :
    d.supply token = c.supply token := by
  simp only [supply, same]

/-- Over all holders, an entry adds up to its amount. -/
theorem sum_entry (h : Holder) (token : Identity) (a : Amount) (other : Identity) :
    ∑ k : Holder, entry h token a k other = if token = other then a.toNat else 0 := by
  by_cases same : token = other
  · simp only [entry, same, and_true, if_true]
    exact Fintype.sum_ite_eq h fun _ => a.toNat
  · simp [entry, same]

theorem supply_issue (done : c.issue h mint a = .ok d) (token : Identity) :
    d.supply token = c.supply token + if mint.id = token then a.toNat else 0 := by
  simp only [supply, issue_entries done, Finset.sum_add_distrib, sum_entry]

theorem supply_transfer (done : c.transfer source target mint a = (d, .ok ()))
    (token : Identity) : d.supply token = c.supply token := by
  have both : ∑ k : Holder, ((d.balance k token).toNat + entry source mint.id a k token) =
      ∑ k : Holder, ((c.balance k token).toNat + entry target mint.id a k token) :=
    Finset.sum_congr rfl fun k _ => transfer_entries done k token
  -- Over all holders both entries come to the same amount, even for one holder.
  rw [Finset.sum_add_distrib, Finset.sum_add_distrib, sum_entry, sum_entry] at both
  exact Nat.add_right_cancel both

end Custody

/-! ### Mints of one token -/

/-- Custody does not tell two mints apart: whatever is asked of it, or of a transition to be
settled, the result is the same for both. -/
structure Mint.SameToken (m m' : Mint) : Prop where
  balanceIn : ∀ (c : Custody) (h : Holder), c.balanceIn h m = c.balanceIn h m'
  issue : ∀ (c : Custody) (h : Holder) (a : Amount), c.issue h m a = c.issue h m' a
  transfer : ∀ (c : Custody) (source target : Holder) (a : Amount),
    c.transfer source target m a = c.transfer source target m' a
  settle : ∀ (t : Transition) (c : Custody),
    { t with account.mint := m }.settle c = { t with account.mint := m' }.settle c

/-- Two mints are one token exactly if they have one key. -/
theorem Mint.sameToken_iff {m m' : Mint} : m.SameToken m' ↔ m.id = m'.id := by
  constructor
  · intro same
    -- A purse in the one token is empty in every other.
    let c := Custody.empty.put (.wallet .unset) m.id ⟨1⟩
    have read : c.balanceIn (.wallet .unset) m = c.balanceIn (.wallet .unset) m' :=
      same.balanceIn c (.wallet .unset)
    rw [Custody.balanceIn, Custody.balanceIn, Custody.balance_put, Custody.balance_put,
      if_pos ⟨rfl, rfl⟩] at read
    by_contra apart
    rw [if_neg fun both => apart both.2] at read
    cases read
  · intro same
    obtain ⟨id, decimals⟩ := m
    obtain ⟨id', decimals'⟩ := m'
    obtain rfl : id = id' := same
    exact ⟨fun _ _ => rfl, fun _ _ _ => rfl, fun _ _ _ _ => rfl, fun _ _ => rfl⟩

/-- Settling a transition moves tokens about. -/
theorem Transition.supply_settle {t : Transition} {c d : Custody}
    (settled : t.settle c = (d, .ok ())) (token : Identity) : d.supply token = c.supply token := by
  rcases settle_ok_cases settled with ⟨-, rfl⟩ | ⟨_, _, _, -, moved⟩
  · rfl
  · exact Custody.supply_transfer moved token

namespace Ledger

/-- What a moment issues of a token. -/
def Moment.issued (m : Moment) (token : Identity) : Nat :=
  match m.step with
  | .issue h mint a =>
    match (m.before.issue h mint a).2 with
    | .ok _ => if mint.id = token then a.toNat else 0
    | .error _ => 0
  | _ => 0

/-- What the moments of a trace issue of a token. -/
def issued (ms : List Moment) (token : Identity) : Nat :=
  (ms.map fun m => m.issued token).sum

/-- What was tried at this moment ended with a fault. -/
def Moment.Failed (m : Moment) : Prop :=
  match m.step with
  | .submit s => ∃ f, (m.before.submit s).2 = .error f
  | .issue h mint a => ∃ f, (m.before.issue h mint a).2 = .error f
  | .transfer source target mint a =>
    ∃ f, (m.before.transfer source target mint a).2 = .error f
  | _ => False

variable {l l' : Ledger} {ms : List Moment} {m : Moment} {s : Step} {token : Identity}

/-! ### One step -/

theorem supply_submit (l : Ledger) (i : Signed) (token : Identity) :
    (l.submit i).1.custody.supply token = l.custody.supply token := by
  rcases submit_cases l i with ⟨_, -, e⟩ | ⟨_, _, _, -, unsettled, e⟩ | ⟨_, _, -, settled, e⟩
  · rw [e]
  · rw [e]
    exact Custody.supply_congr fun h => Transition.balance_of_settle_error unsettled h token
  · rw [e]
    exact Transition.supply_settle settled token

theorem supply_issue (l : Ledger) (h : Holder) (mint : Mint) (a : Amount)
    (token : Identity) :
    (l.issue h mint a).1.custody.supply token =
      l.custody.supply token + (⟨l, .issue h mint a⟩ : Moment).issued token := by
  rw [Moment.issued]
  dsimp only
  unfold issue
  rcases e : l.custody.issue h mint a with f | c
  · rfl
  · exact Custody.supply_issue e token

theorem supply_transfer (l : Ledger) (source target : Holder) (mint : Mint) (a : Amount)
    (token : Identity) :
    (l.transfer source target mint a).1.custody.supply token = l.custody.supply token := by
  unfold transfer
  rcases e : l.custody.transfer source target mint a with ⟨c, f | done⟩
  · exact Custody.supply_congr fun h => Custody.balance_of_transfer_error e h token
  · exact Custody.supply_transfer e token

/-- The supply grows by what is issued, and by nothing else. -/
theorem supply_step (single : s.Single) (token : Identity) :
    (l.step s).custody.supply token =
      l.custody.supply token + (⟨l, s⟩ : Moment).issued token := by
  cases s with
  | submit i => exact supply_submit l i token
  | submitAll batch => exact single.elim
  | setTime t => rfl
  | advance d => rfl
  | issue h mint a => exact supply_issue l h mint a token
  | transfer source target mint a => exact supply_transfer l source target mint a token
  | arm reason => rfl

/-- What fails leaves every balance as it was. -/
theorem Moment.balance_of_failed (failed : m.Failed) (h : Holder) (token : Identity) :
    m.after.custody.balance h token = m.before.custody.balance h token := by
  obtain ⟨l, s⟩ := m
  cases s with
  | submit i =>
    obtain ⟨f, refused⟩ := failed
    show (l.submit i).1.custody.balance h token = _
    rcases submit_cases l i with ⟨_, -, e⟩ | ⟨_, _, _, -, unsettled, e⟩ | ⟨_, _, -, -, e⟩
    · rw [e]
    · rw [e]
      exact Transition.balance_of_settle_error unsettled h token
    · rw [e] at refused
      cases refused
  | issue k mint a =>
    obtain ⟨f, refused⟩ := failed
    show (l.issue k mint a).1.custody.balance h token = _
    unfold Ledger.issue at refused ⊢
    rcases e : l.custody.issue k mint a with _ | c
    · rfl
    · rw [e] at refused
      cases refused
  | transfer source target mint a =>
    obtain ⟨f, refused⟩ := failed
    show (l.transfer source target mint a).1.custody.balance h token = _
    unfold Ledger.transfer at refused ⊢
    rcases e : l.custody.transfer source target mint a with ⟨c, _ | done⟩
    · exact Custody.balance_of_transfer_error e h token
    · rw [e] at refused
      cases refused
  | _ => exact failed.elim

/-! ### Whole runs -/

theorem Path.supply (p : Path l ms l') (token : Identity) :
    l'.custody.supply token = l.custody.supply token + issued ms token := by
  induction p with
  | nil => simp [issued]
  | @cons l l' s ms single _ ih =>
    rw [ih, supply_step single, issued, issued, List.map_cons, List.sum_cons, Nat.add_assoc]

/-- **Conservation.**  Of every token, all holders together have what was issued, and
each of them has what a word can hold.  Nothing that fails moves a token.  Which token
a mint stands for is decided by its key alone: neither the direct calls nor the settling
of a transition tell mints of one key apart. -/
theorem supply_conserved (limits : Limits) (retention : Nat) (steps : List Step) :
    let start := Ledger.fresh limits retention
    let past := start.trace steps
    let l := start.run steps
    (∀ token, ∑ h : Holder, (l.custody.balance h token).toNat = issued past token) ∧
      (∀ h token, (l.custody.balance h token).toNat < UInt64.size) ∧
      (∀ m ∈ past, m.Failed → ∀ h token,
        m.after.custody.balance h token = m.before.custody.balance h token) ∧
      ∀ m m' : Mint, m.SameToken m' ↔ m.id = m'.id := by
  intro start past l
  refine ⟨fun token => ?_, fun h token => (l.custody.balance h token).toNat_lt,
    fun m _ failed => m.balance_of_failed failed, fun _ _ => Mint.sameToken_iff⟩
  have path : Path start past l := path_trace start steps
  have nothing : start.custody.supply token = 0 := by
    simp [start, Ledger.fresh, Custody.supply, Custody.empty, Custody.balance]
  have grown := path.supply token
  rwa [nothing, Nat.zero_add] at grown

/-- A run in which a vault is filled to the brim, by mints that differ in their decimals, a
wallet pays itself, and one issue and one transfer find no room. -/
def brimful : List Step :=
  [.issue (.wallet (.ofSeed 1)) .usdc ⟨100⟩,
    .issue (.vault (.ofSeed 2)) ⟨Mint.usdc.id, 2⟩ ⟨18446744073709551615⟩,
    .issue (.vault (.ofSeed 2)) .usdc ⟨1⟩,
    .transfer (.wallet (.ofSeed 1)) (.wallet (.ofSeed 1)) .usdc ⟨30⟩,
    .transfer (.wallet (.ofSeed 1)) (.vault (.ofSeed 2)) .usdc ⟨30⟩]

/-- The supply is more than a word can hold, and the last transfer has taken nothing
from the wallet. -/
theorem brimful_supply :
    let start := Ledger.fresh .standard 8
    let m : Moment := ⟨start.run (brimful.take 4),
      .transfer (.wallet (.ofSeed 1)) (.vault (.ofSeed 2)) .usdc ⟨30⟩⟩
    ∑ h : Holder, ((start.run brimful).custody.balance h Mint.usdc.id).toNat = 2 ^ 64 + 99 ∧
      m.Failed ∧ m.after.custody.balance (.wallet (.ofSeed 1)) Mint.usdc.id = ⟨100⟩ := by
  intro start m
  have history : start.trace brimful = start.trace (brimful.take 4) ++ [m] := by
    rfl
  have failed : m.Failed := ⟨.overflow (.vault (.ofSeed 2)), by decide +kernel⟩
  obtain ⟨supply, -, kept, -⟩ := supply_conserved .standard 8 brimful
  refine ⟨?_, failed, ?_⟩
  · rw [supply]
    decide +kernel
  · rw [kept m (by rw [history]; simp) failed]
    decide +kernel

end Ledger

end DelegatedEscrow
