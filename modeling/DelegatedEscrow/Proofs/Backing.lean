/-
DelegatedEscrow/Proofs/Backing.lean

What backs the balances on record.  Two stores are kept apart, the records of
the escrows and the purses in custody, and each instruction updates both.  They
agree exactly:

    held by the vault of an owner = credited to it from outside
                                      + on record in its escrow

in every token, at every moment, as long as nobody but the escrows takes tokens
out of a vault.  Tokens that others put into a vault stay there and are never
paid out.

The law is proved for one step as an equation between what was and what is
(`backing_step`), and summed up along the trace (`Path.backing`).
-/
import DelegatedEscrow.Proofs.Refusal
import DelegatedEscrow.Proofs.Soundness

namespace DelegatedEscrow

namespace Ledger

open Custody

/-- What is on record of a token in the escrow of an owner. -/
def recorded (l : Ledger) (owner token : Identity) : Nat :=
  match l.escrow? owner with
  | some a => if a.mint.id = token then a.balance.toNat else 0
  | none => 0

/-- A step in which nobody reaches into a vault: tokens that are moved past the
escrows come out of a wallet. -/
def Step.SparesVaults : Step → Prop
  | .transfer source _ _ _ => ∃ i, source = .wallet i
  | _ => True

/-- What a moment credits to the vault of an owner from outside. -/
def Moment.credited (m : Moment) (owner token : Identity) : Nat :=
  match m.step with
  | .issue h mint a =>
    match (m.before.issue h mint a).2 with
    | .ok _ => entry h mint.id a (.vault owner) token
    | .error _ => 0
  | .transfer source target mint a =>
    match (m.before.transfer source target mint a).2 with
    | .ok _ => entry target mint.id a (.vault owner) token
    | .error _ => 0
  | _ => 0

/-- What the moments of a trace credit to the vault of an owner from outside. -/
def credited (ms : List Moment) (owner token : Identity) : Nat :=
  match ms with
  | [] => 0
  | m :: rest => m.credited owner token + credited rest owner token

variable {l l' : Ledger} {ms : List Moment} {s : Step} {limits : Limits} {retention : Nat}
variable {P : Account → Prop} {owner token : Identity} {a : Account}

theorem recorded_of_some (found : l.escrow? owner = some a) :
    l.recorded owner token = if a.mint.id = token then a.balance.toNat else 0 := by
  rw [recorded, found]

/-- What is on record, as an entry over the balance for the vault. -/
theorem recorded_eq_entry (found : l.escrow? owner = some a) (filed : a.owner = owner) :
    l.recorded owner token =
      entry (.vault a.owner) a.mint.id a.balance (.vault owner) token := by
  rw [recorded_of_some found, entry, filed]
  simp

theorem recorded_of_none (absent : l.escrow? owner = none) : l.recorded owner token = 0 := by
  rw [recorded, absent]

theorem recorded_congr (same : l'.escrow? owner = l.escrow? owner) :
    l'.recorded owner token = l.recorded owner token := by
  rw [recorded, same, recorded]

theorem recorded_written {t : Transition} (c : Custody) (here : t.account.owner = owner) :
    (l.written c t).recorded owner token =
      entry (.vault t.account.owner) t.account.mint.id t.account.balance (.vault owner)
        token :=
  recorded_eq_entry (escrow?_written.trans (if_pos here)) here

theorem recorded_written_of_ne {t : Transition} (c : Custody)
    (elsewhere : t.account.owner ≠ owner) :
    (l.written c t).recorded owner token = l.recorded owner token :=
  recorded_congr (escrow?_written.trans (if_neg elsewhere))

/-! ### One step -/

/-- An instruction that takes effect moves the vault along with the record. -/
theorem backing_written (h : l.Records limits P) {i : Signed} {t : Transition} {c : Custody}
    (staged : l.stage i = .ok t) (settled : t.settle l.custody = (c, .ok ()))
    (owner token : Identity) :
    (c.balance (.vault owner) token).toNat + l.recorded owner token =
      (l.custody.balance (.vault owner) token).toNat +
        (l.written c t).recorded owner token := by
  obtain ⟨signer, ⟨mint, ceiling, caps⟩ | ⟨target, action⟩⟩ := i
  · -- A new escrow holds nothing and moves nothing.
    obtain ⟨absent, created⟩ := stage_create_eq_ok_iff.1 staged
    obtain ⟨owns, empty, still, -⟩ := Setting.create_effect created
    rw [Transition.settle_of_none still] at settled
    cases settled
    by_cases here : t.account.owner = owner
    · have before : l.escrow? owner = none := by rw [← here, owns, absent]
      rw [recorded_of_none before, recorded_written _ here, empty, entry_zero]
    · rw [recorded_written_of_ne _ here]
  · obtain ⟨a, found, acted⟩ := stage_act_eq_ok_iff.1 staged
    obtain ⟨terms, books, -, -⟩ := Action.stage_effect acted
    have filed := h.filed found
    have vault := books.settle_vault terms.mint settled owner token
    by_cases here : t.account.owner = owner
    · have same : target = owner := by rw [← filed, ← terms.owner, here]
      subst same
      rw [recorded_eq_entry found filed, recorded_written c here, terms.owner, terms.mint]
      exact vault
    · -- The tokens move to or from another vault.
      have elsewhere : Holder.vault a.owner ≠ .vault owner := by
        rw [← terms.owner]
        simpa using here
      rw [recorded_written_of_ne c here]
      rw [entry_of_ne elsewhere, entry_of_ne elsewhere] at vault
      omega

theorem backing_submit (h : l.Records limits P) (i : Signed) (owner token : Identity) :
    ((l.submit i).1.custody.balance (.vault owner) token).toNat + l.recorded owner token =
      (l.custody.balance (.vault owner) token).toNat + (l.submit i).1.recorded owner token := by
  rcases submit_cases l i with ⟨_, -, e⟩ | ⟨t, c, f, -, unsettled, e⟩ | ⟨t, c, staged, settled, e⟩
  · rw [e]
  · rw [e]
    show (c.balance (.vault owner) token).toNat + _ = _
    rw [Transition.balance_of_settle_error unsettled]
    rfl
  · rw [e]
    exact backing_written h staged settled owner token

/-- Tokens issued to a vault are credited to it, and nothing else changes there. -/
theorem backing_issue (l : Ledger) (k : Holder) (mint : Mint) (x : Amount)
    (owner token : Identity) :
    ((l.issue k mint x).1.custody.balance (.vault owner) token).toNat =
      (l.custody.balance (.vault owner) token).toNat +
        (⟨l, .issue k mint x⟩ : Moment).credited owner token := by
  rw [Moment.credited]
  dsimp only
  unfold issue
  rcases e : l.custody.issue k mint x with f | c
  · rfl
  · exact issue_entries e _ _

/-- Tokens that come out of a wallet are credited to the vault they go to. -/
theorem backing_transfer (l : Ledger) (i : Identity) (target : Holder) (mint : Mint)
    (x : Amount) (owner token : Identity) :
    ((l.transfer (.wallet i) target mint x).1.custody.balance (.vault owner) token).toNat =
      (l.custody.balance (.vault owner) token).toNat +
        (⟨l, .transfer (.wallet i) target mint x⟩ : Moment).credited owner token := by
  rw [Moment.credited]
  dsimp only
  unfold transfer
  rcases e : l.custody.transfer (.wallet i) target mint x with ⟨c, f | done⟩
  · rcases transfer_error e with ⟨_, -, -, rfl⟩ | ⟨-, -, rfl⟩ <;> rfl
  · have moved := transfer_entries e (.vault owner) token
    rw [entry_of_ne (by simp)] at moved
    exact moved

/-- What the vault holds grows by what is credited from outside and follows what
is on record. -/
theorem backing_step (h : l.Records limits P) (single : s.Single) (spares : s.SparesVaults)
    (owner token : Identity) :
    ((l.step s).custody.balance (.vault owner) token).toNat + l.recorded owner token =
      (l.custody.balance (.vault owner) token).toNat +
        (⟨l, s⟩ : Moment).credited owner token + (l.step s).recorded owner token := by
  cases s with
  | submit i => exact backing_submit h i owner token
  | submitAll batch => exact single.elim
  | setTime t => rfl
  | advance d => rfl
  | arm reason => rfl
  | issue k mint x =>
    have kept : (l.step (.issue k mint x)).recorded owner token = l.recorded owner token :=
      recorded_congr (escrow?_step single (by simp) owner)
    rw [kept, ← backing_issue]
    rfl
  | transfer source target mint x =>
    obtain ⟨i, rfl⟩ := spares
    have kept : (l.step (.transfer (.wallet i) target mint x)).recorded owner token =
        l.recorded owner token :=
      recorded_congr (escrow?_step single (by simp) owner)
    rw [kept, ← backing_transfer]
    rfl

/-! ### Whole runs -/

theorem Path.backing (inv : Account.Invariant limits P) (p : Path l ms l')
    (h : l.Records limits P) (spares : ∀ m ∈ ms, m.step.SparesVaults)
    (owner token : Identity) :
    (l'.custody.balance (.vault owner) token).toNat + l.recorded owner token =
      (l.custody.balance (.vault owner) token).toNat + credited ms owner token +
        l'.recorded owner token := by
  induction p with
  | nil => simp [credited]
  | @cons l l' s ms single _ ih =>
    have first := backing_step h single (spares _ List.mem_cons_self) owner token
    have rest := ih (h.step inv single) fun m hm => spares m (List.mem_cons_of_mem _ hm)
    rw [credited]
    omega

/-- If the vaults are backed, a ledger refuses nothing but a deposit for want of
tokens. -/
theorem submit_insufficient (h : l.Records limits P)
    (backed : ∀ owner token, l.recorded owner token ≤
      (l.custody.balance (.vault owner) token).toNat)
    {i : Signed} {holder : Holder} {available requested : Amount}
    (refused : (l.submit i).2 =
      .error (.custody (.insufficientFunds holder available requested))) :
    ∃ owner amount, i.instruction = .act owner (.deposit amount) := by
  rcases submit_cases l i with ⟨f, unstaged, e⟩ | ⟨t, c, f, staged, unsettled, e⟩ | ⟨_, _, -, -, e⟩
  · -- No rule blames custody.
    rw [e] at refused
    obtain rfl : f = _ := Except.error.inj refused
    exact absurd unstaged (ordinary_stage l i _)
  · rw [e] at refused
    cases refused
    obtain ⟨signer, ⟨mint, ceiling, caps⟩ | ⟨owner, action⟩⟩ := i
    · obtain ⟨-, created⟩ := stage_create_eq_ok_iff.1 staged
      rw [Transition.settle_of_none (Setting.create_effect created).2.2.1] at unsettled
      cases unsettled
    · obtain ⟨a, found, acted⟩ := stage_act_eq_ok_iff.1 staged
      obtain ⟨terms, books, -, -⟩ := Action.stage_effect acted
      have enough := backed owner a.mint.id
      rw [recorded_of_some found, if_pos rfl, ← h.filed found] at enough
      obtain ⟨amount, rfl⟩ :=
        books.settle_insufficient terms.mint enough unsettled
      exact ⟨owner, amount, rfl⟩
  · rw [e] at refused
    cases refused

/-- On a ledger that starts without tokens, the equation needs no account of the
start. -/
theorem Path.backing_fresh (inv : Account.Invariant limits P)
    (p : Path (Ledger.fresh limits retention) ms l)
    (spares : ∀ m ∈ ms, m.step.SparesVaults) (owner token : Identity) :
    (l.custody.balance (.vault owner) token).toNat =
      credited ms owner token + l.recorded owner token := by
  have backed := p.backing inv (Records.fresh limits P retention) spares owner token
  have nothing : (Ledger.fresh limits retention).recorded owner token = 0 :=
    recorded_of_none (by simp [escrow?, Ledger.fresh])
  have empty : (Ledger.fresh limits retention).custody.balance (.vault owner) token = 0 := by
    simp [Ledger.fresh, Custody.empty, Custody.balance]
  rw [nothing, empty] at backed
  simpa using backed

/-- **Exact backing.**  As long as nobody else reaches into the vaults, a vault
holds what others have put there and what is on record, and not a token more.

So an escrow reconciles exactly if nothing was put into its vault from outside,
the vault of a closed escrow is empty unless something was, and only a deposit,
which draws on a wallet, is ever refused for want of tokens. -/
theorem vaults_backed (limits : Limits) (retention : Nat) (steps : List Step)
    (spares : ∀ s ∈ steps, s.SparesVaults) :
    let start := Ledger.fresh limits retention
    let past := start.trace steps
    let l := start.run steps
    (∀ owner token, (l.custody.balance (.vault owner) token).toNat =
        credited past owner token + l.recorded owner token) ∧
      (∀ owner a, l.escrow? owner = some a →
        l.reconciles owner = .ok (decide (credited past owner a.mint.id = 0)) ∧
          (a.status = .closed → ∀ token, credited past owner token = 0 →
            l.custody.balance (.vault owner) token = 0)) ∧
      ∀ m ∈ past, ∀ s holder available requested, m.step = .submit s →
        (m.before.submit s).2 =
            .error (.custody (.insufficientFunds holder available requested)) →
          ∃ owner amount, s.instruction = .act owner (.deposit amount) := by
  intro start past l
  have inv := Account.sound_invariant limits
  have path : Path start past l := path_trace start steps
  have spared : ∀ m ∈ past, m.step.SparesVaults :=
    forall_mem_trace spares (fun _ => trivial) start
  obtain ⟨records, each⟩ := Records.run inv retention steps
  have backed := path.backing_fresh inv spared
  refine ⟨backed, fun owner a found => ⟨?_, fun closed token gifts => ?_⟩, ?_⟩
  · have enough := backed owner a.mint.id
    rw [recorded_of_some found, if_pos rfl] at enough
    have exact_iff : l.custody.balanceIn (.vault owner) a.mint = a.balance ↔
        credited past owner a.mint.id = 0 := by
      rw [Custody.balanceIn, ← Amount.toNat_inj]
      omega
    rw [reconciles, escrow, found]
    show Except.ok (decide _) = _
    rw [decide_eq_decide.2 exact_iff]
  · have enough := backed owner token
    have empty := ((records.each found).closed_empty closed).1
    rw [recorded_of_some found, empty, gifts] at enough
    rw [← Amount.toNat_inj, enough]
    simp
  · intro m hm s holder available requested _ refused
    obtain ⟨earlier, before, within⟩ := path.to_moment hm
    refine submit_insufficient (each m hm) (fun owner token => ?_) refused
    have backed := before.backing_fresh inv (fun n hn => spared n (within n hn)) owner token
    omega

/-- A run in which 7 tokens are put into a vault past its escrow. -/
def gift : List Step :=
  [.issue (.wallet (.ofSeed 1)) .usdc ⟨100⟩,
    .submit ⟨.ofSeed 1, .create .usdc 0 .unlimited⟩,
    .submit ⟨.ofSeed 1, .act (.ofSeed 1) (.deposit ⟨60⟩)⟩,
    .transfer (.wallet (.ofSeed 1)) (.vault (.ofSeed 1)) .usdc ⟨7⟩,
    .submit ⟨.ofSeed 1, .act (.ofSeed 1) (.withdraw ⟨10⟩)⟩]

/-- The vault holds the gift of 7 and the 50 that are left on record. -/
theorem vault_backed_after_gift :
    (∀ s ∈ gift, s.SparesVaults) ∧
      (((Ledger.fresh .standard 8).run gift).custody.balance (.vault (.ofSeed 1))
        Mint.usdc.id).toNat = 7 + 50 := by
  have spares : ∀ s ∈ gift, s.SparesVaults := by
    simp [gift, Step.SparesVaults]
  refine ⟨spares, ?_⟩
  obtain ⟨backed, -, -⟩ := vaults_backed .standard 8 gift spares
  rw [backed]
  decide +kernel

end Ledger

end DelegatedEscrow
