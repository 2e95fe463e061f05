/-
DelegatedEscrow/Proofs/Nonces.lean

Replays.  An escrow counts the spendings of its delegates, and each of them has
to present the count as its nonce.  Nothing else touches the count, and a record
never goes away, so the history of an escrow can be read off its record:

    0, 1, …, count after - 1
      = 0, 1, …, count before - 1, followed by the nonces spent in between

This is proved for one step (`range_nonceCount_step`) and adds up along a path
(`Path.range_nonceCount`).  Since the numbers on the left are all different, no
nonce is ever spent twice, in whatever order signed instructions are delivered,
and however often.
-/
import DelegatedEscrow.Proofs.Records
import Mathlib.Data.List.Nodup

namespace DelegatedEscrow

open Account

/-- The nonce that an instruction spends on the escrow of an owner if it takes
effect. -/
def Signed.spends? (s : Signed) (owner : Identity) : Option Nonce :=
  if s.target = owner then s.instruction.nonce? else none

@[simp] theorem Signed.spends?_create {signer owner : Identity} {mint : Mint}
    {ceiling : Amount} {caps : LifetimeCaps} :
    Signed.spends? ⟨signer, .create mint ceiling caps⟩ owner = none := by
  simp [Signed.spends?, Instruction.nonce?]

theorem Signed.spends?_act {signer target owner : Identity} {action : Action} :
    Signed.spends? ⟨signer, .act target action⟩ owner =
      if target = owner then action.nonce? else none := rfl

namespace Ledger

/-- The nonce spent on the escrow of an owner at a moment. -/
def Moment.spent? (m : Moment) (owner : Identity) : Option Nonce :=
  m.accepted?.bind fun s => s.spends? owner

/-- The nonces spent on the escrow of an owner, in the order of acceptance. -/
def spent (ms : List Moment) (owner : Identity) : List Nonce :=
  (accepted ms).filterMap fun s => s.spends? owner

/-- How many nonces are spent according to the record. -/
def nonceCount (l : Ledger) (owner : Identity) : Nat :=
  match l.escrow? owner with
  | some a => a.nonce.toNat
  | none => 0

variable {l l' : Ledger} {ms : List Moment} {m : Moment} {i : Signed}
variable {limits : Limits} {P : Account → Prop} {owner : Identity} {a : Account}

theorem nonceCount_of_some (found : l.escrow? owner = some a) :
    l.nonceCount owner = a.nonce.toNat := by
  rw [nonceCount, found]

theorem nonceCount_of_none (absent : l.escrow? owner = none) : l.nonceCount owner = 0 := by
  rw [nonceCount, absent]

theorem spent_cons : spent (m :: ms) owner = (m.spent? owner).toList ++ spent ms owner := by
  simp only [spent, accepted, List.filterMap_filterMap]
  exact filterMap_cons_toList _ _ _

/-! ### What is spent at one moment -/

theorem spent?_of_accepted (accepted : m.accepted? = some i) :
    m.spent? owner = i.spends? owner := by
  rw [Moment.spent?, accepted, Option.bind_some]

theorem spent?_of_others (others : ∀ i, m.accepted? = some i → i.target ≠ owner) :
    m.spent? owner = none := by
  rw [Moment.spent?, Option.bind_eq_none_iff]
  intro i accepted
  exact if_neg (others i accepted)

/-- **One step.**  The nonce of a record advances by what is spent on its escrow at
that moment, and by nothing else. -/
theorem nonce_step (h : RecordStep m owner) (found : m.before.escrow? owner = some a) :
    ∃ b, m.after.escrow? owner = some b ∧ Advances a.nonce (m.spent? owner) b.nonce := by
  cases h with
  | kept same others =>
    rw [spent?_of_others others]
    exact ⟨a, same.trans found, rfl⟩
  | opened _ _ _ _ _ absent _ _ =>
    rw [found] at absent
    cases absent
  | acted signer action a' t accepted found' staged written =>
    obtain rfl : a = a' := Option.some.inj (found.symm.trans found')
    rw [spent?_of_accepted accepted, Signed.spends?_act, if_pos rfl]
    exact ⟨t.account, written, (Action.stage_effect staged).nonce⟩

/-- Where there is no record nothing is spent, and a new record has spent nothing. -/
theorem nonce_step_absent (h : RecordStep m owner) (absent : m.before.escrow? owner = none) :
    m.spent? owner = none ∧ m.after.nonceCount owner = 0 := by
  cases h with
  | kept same others => exact ⟨spent?_of_others others, nonceCount_of_none (same.trans absent)⟩
  | opened mint ceiling caps t accepted _ created written =>
    obtain ⟨-, -, -, unspent⟩ := Setting.create_effect created
    rw [spent?_of_accepted accepted, Signed.spends?_create, nonceCount_of_some written, unspent]
    exact ⟨rfl, rfl⟩
  | acted _ _ _ _ _ found _ _ =>
    rw [absent] at found
    cases found

theorem range_nonceCount_step (h : RecordStep m owner) :
    List.range (m.after.nonceCount owner) =
      List.range (m.before.nonceCount owner) ++ (m.spent? owner).toList.map UInt64.toNat := by
  rcases e : m.before.escrow? owner with - | a
  · -- No record, or a new one: both sides are empty.
    obtain ⟨nothing, unspent⟩ := nonce_step_absent h e
    rw [nothing, unspent, nonceCount_of_none e]
    rfl
  · obtain ⟨b, found, advances⟩ := nonce_step h e
    rw [nonceCount_of_some e, nonceCount_of_some found]
    rcases spending : m.spent? owner with - | n
    · rw [spending] at advances
      have kept : b.nonce = a.nonce := advances
      rw [kept]
      simp
    · rw [spending] at advances
      obtain ⟨rfl, next⟩ := advances
      rw [next, List.range_succ]
      rfl

/-! ### Whole runs -/

theorem Path.range_nonceCount (inv : Invariant limits P) (p : Path l ms l')
    (h : l.Records limits P) (owner : Identity) :
    List.range (l'.nonceCount owner) =
      List.range (l.nonceCount owner) ++ (spent ms owner).map UInt64.toNat := by
  induction p with
  | nil => simp [spent, accepted]
  | @cons l l' s ms single _ ih =>
    have first : RecordStep ⟨l, s⟩ owner := Records.recordStep h single owner
    calc
      List.range (l'.nonceCount owner)
          = List.range ((l.step s).nonceCount owner) ++ (spent ms owner).map UInt64.toNat :=
        ih (h.step inv single)
      _ = List.range (l.nonceCount owner) ++
            ((⟨l, s⟩ : Moment).spent? owner).toList.map UInt64.toNat ++
              (spent ms owner).map UInt64.toNat := by
        rw [← range_nonceCount_step first]
        rfl
      _ = List.range (l.nonceCount owner) ++ (spent (⟨l, s⟩ :: ms) owner).map UInt64.toNat := by
        rw [spent_cons, List.map_append, List.append_assoc]

/-- An instruction that takes effect twice spends its nonce twice. -/
theorem count_accepted_le {n : Nonce} (spends : i.spends? owner = some n) :
    (accepted ms).count i ≤ (spent ms owner).count n := by
  rw [spent, List.count_filterMap]
  refine List.countP_mono_left fun j _ same => ?_
  rw [eq_of_beq same, spends]
  simp

/-- **No replays.**  The nonces spent on an escrow are 0, 1, 2 and so on, in this
order, up to the count on record; in particular, all of them are different.  The
nonce of a record moves at no other moment, and no signed instruction that
presents a nonce takes effect twice. -/
theorem nonces_spent_in_order (limits : Limits) (retention : Nat) (steps : List Step) :
    let start := Ledger.fresh limits retention
    let past := start.trace steps
    let l := start.run steps
    (∀ owner a, l.escrow? owner = some a →
        (spent past owner).map UInt64.toNat = List.range a.nonce.toNat) ∧
      (∀ owner, l.escrow? owner = none → spent past owner = []) ∧
      (∀ owner, (spent past owner).Nodup) ∧
      (∀ m ∈ past, ∀ owner a, m.before.escrow? owner = some a →
        (∀ i, m.accepted? = some i → i.spends? owner = none) →
          ∃ b, m.after.escrow? owner = some b ∧ b.nonce = a.nonce) ∧
      ∀ i : Signed, i.instruction.nonce?.isSome → (accepted past).count i ≤ 1 := by
  intro start past l
  have inv : Invariant limits fun _ => True := ⟨fun _ => trivial, fun _ _ => trivial⟩
  have path : Path start past l := path_trace start steps
  have ranges : ∀ owner, (spent past owner).map UInt64.toNat = List.range (l.nonceCount owner) := by
    intro owner
    have unspent : start.nonceCount owner = 0 :=
      nonceCount_of_none (by simp [start, escrow?, fresh])
    rw [path.range_nonceCount inv (Records.fresh limits _ retention), unspent]
    rfl
  have distinct : ∀ owner, (spent past owner).Nodup := by
    intro owner
    apply List.Nodup.of_map UInt64.toNat
    rw [ranges]
    exact List.nodup_range
  refine ⟨fun owner a found => ?_, fun owner absent => ?_, distinct, ?_, fun i signs => ?_⟩
  · rw [ranges, nonceCount_of_some found]
  · have none_spent := ranges owner
    rw [nonceCount_of_none absent] at none_spent
    exact List.map_eq_nil_iff.1 none_spent
  · intro m hm owner a found silent
    have none_spent : m.spent? owner = none := by
      rw [Moment.spent?, Option.bind_eq_none_iff]
      exact silent
    have records := (Records.run inv retention steps).2 m hm
    have here := records.recordStep (path.single_of_mem hm) owner
    obtain ⟨b, after, advances⟩ := nonce_step here found
    rw [none_spent] at advances
    exact ⟨b, after, advances⟩
  · -- Taking effect twice, it would spend its nonce twice on its own target.
    obtain ⟨n, presents⟩ := Option.isSome_iff_exists.1 signs
    have spends : i.spends? i.target = some n := (if_pos rfl).trans presents
    have once := List.nodup_iff_count_le_one.1 (distinct i.target) n
    exact Nat.le_trans (count_accepted_le spends) once

end Ledger

end DelegatedEscrow
