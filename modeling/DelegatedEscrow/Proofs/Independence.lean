/-
DelegatedEscrow/Proofs/Independence.lean

Instructions that do not depend on each other.  Two instructions that are about different
escrows and signed by different signers can be carried out in either order:

    outcome of `i` after `j`  =  outcome of `i`
    ledger after `i`, `j`     =  ledger after `j`, `i`

up to the order, and so the ids, of the events.

An instruction looks at the record of one escrow and touches two purses of each token:
that of the vault behind the escrow and that of the wallet of the signer.  Ledgers that
are the same in these are `Alike` to the instruction.  It ends on both in the same way
(`Alike.submit`); and what is independent of it leaves a ledger alike
(`Alike.after`).  That both orders come to the same ledger is then a matter of two writes
to different records and of double entry.
-/
import DelegatedEscrow.Proofs.Announcements
import DelegatedEscrow.Proofs.Settlement

namespace DelegatedEscrow

/-- A receipt but for the number of the event. -/
def Receipt.unnumbered (r : Receipt) : Receipt := { r with eventId := 0 }

/-- An event but for its number. -/
def Event.unnumbered (e : Event) : Event := { e with id := 0 }

/-! ### What an instruction touches -/

namespace Signed

/-- The holders that an instruction can move tokens between. -/
def Touches (i : Signed) (h : Holder) : Prop := h = .vault i.target ∨ h = .wallet i.signer

/-- Instructions about different escrows, by different signers. -/
structure Independent (i j : Signed) : Prop where
  targets : i.target ≠ j.target
  signers : i.signer ≠ j.signer

variable {i j : Signed} {h : Holder}

theorem Independent.symm (independent : i.Independent j) : j.Independent i :=
  ⟨independent.targets.symm, independent.signers.symm⟩

theorem Independent.untouched (independent : i.Independent j) (touched : j.Touches h) :
    ¬ i.Touches h := by
  rintro (rfl | rfl)
  · rcases touched with same | same
    · exact independent.targets (Holder.vault.inj same)
    · cases same
  · rcases touched with same | same
    · cases same
    · exact independent.signers (Holder.wallet.inj same)

end Signed

/-- The tokens of a transition move between holders that the instruction touches. -/
def Transition.Within (t : Transition) (i : Signed) : Prop :=
  ∀ m, t.movement = some m → i.Touches m.source ∧ i.Touches m.target

theorem Ledger.Records.within {limits : Limits} {P : Account → Prop} {l : Ledger} {i : Signed}
    {t : Transition} (records : l.Records limits P) (staged : l.stage i = .ok t) :
    t.Within i := by
  intro m moves
  obtain ⟨signer, ⟨mint, ceiling, caps⟩ | ⟨owner, action⟩⟩ := i
  · obtain ⟨-, created⟩ := stage_create_eq_ok_iff.1 staged
    obtain ⟨-, -, movement, -⟩ := Setting.create_effect created
    cases movement.symm.trans moves
  · obtain ⟨a, found, acted⟩ := stage_act_eq_ok_iff.1 staged
    obtain rfl : a.owner = owner := records.filed found
    cases (Action.stage_effect acted).books with
    | still movement _ _ => cases movement.symm.trans moves
    | paidIn amount _ _ movement _ _ _ _ =>
      cases movement.symm.trans moves
      exact ⟨.inr rfl, .inl rfl⟩
    | paidOut amount _ movement _ _ _ =>
      cases movement.symm.trans moves
      exact ⟨.inl rfl, .inr rfl⟩

namespace Transition.Within

open Custody

variable {t : Transition} {i : Signed} {c c' d : Custody} {k : Holder} {token : Identity}
variable {r : Except CustodyFault Unit}

/-- A purse that the instruction does not touch stays as it is. -/
theorem balance_settle (within : t.Within i) (settled : t.settle c = (d, .ok ()))
    (untouched : ¬ i.Touches k) : d.balance k token = c.balance k token := by
  rcases settle_ok_cases settled with ⟨-, rfl⟩ | ⟨source, target, amount, e, moved⟩
  · rfl
  · obtain ⟨atSource, atTarget⟩ := within _ e
    have notSource : source ≠ k := fun same => untouched (same ▸ atSource)
    have notTarget : target ≠ k := fun same => untouched (same ▸ atTarget)
    have entries := transfer_entries moved k token
    -- Neither side of the transfer is this purse.
    rw [entry_of_ne notSource, entry_of_ne notTarget] at entries
    exact Amount.toNat_inj.1 entries

/-- Where the purses touched are the same, a transition is settled with the same result. -/
theorem settle_congr (within : t.Within i) (unarmed : c.armed = none)
    (unarmed' : c'.armed = none)
    (purses : ∀ h, i.Touches h → ∀ token, c'.balance h token = c.balance h token)
    (done : t.settle c = (d, r)) : ∃ d', t.settle c' = (d', r) := by
  have same : (t.settle c').2 = (t.settle c).2 := by
    rcases e : t.movement with - | ⟨source, target, amount⟩
    · rw [settle_of_none e, settle_of_none e]
    · obtain ⟨atSource, atTarget⟩ := within _ e
      rw [settle_of_some e, settle_of_some e]
      exact transfer_congr unarmed unarmed' (purses _ atSource _) (purses _ atTarget _)
  rw [done] at same
  exact ⟨(t.settle c').1, Prod.ext rfl same⟩

end Transition.Within

namespace Ledger

variable {limits : Limits} {P : Account → Prop} {l l' : Ledger} {i j : Signed}
variable {t u : Transition} {c c' d d' : Custody}

/-! ### Alike to an instruction -/

/-- Two ledgers without an armed failure are the same in all that an instruction looks at
and touches. -/
structure Alike (i : Signed) (l l' : Ledger) : Prop where
  setting : l'.setting = l.setting
  record : l'.escrow? i.target = l.escrow? i.target
  purses : ∀ h, i.Touches h → ∀ token, l'.custody.balance h token = l.custody.balance h token
  unarmed : l.custody.armed = none
  unarmed' : l'.custody.armed = none

/-- The same instruction ends in the same way on two ledgers: it is refused with the same
fault and changes nothing, or the same transition is written. -/
inductive Agree (i : Signed) (l l' : Ledger) : Prop
  | refused (f : Fault) (here : l.submit i = (l, .error f)) (there : l'.submit i = (l', .error f))
  | written (t : Transition) (c c' : Custody) (staged : l.stage i = .ok t)
      (settled : t.settle l.custody = (c, .ok ())) (settled' : t.settle l'.custody = (c', .ok ()))
      (here : l.submit i = (l.written c t, .ok (l.receiptFor t)))
      (there : l'.submit i = (l'.written c' t, .ok (l'.receiptFor t)))

namespace Alike

theorem refl (unarmed : l.custody.armed = none) : Alike i l l :=
  ⟨rfl, rfl, fun _ _ _ => rfl, unarmed, unarmed⟩

theorem stage (alike : Alike i l l') : l'.stage i = l.stage i := by
  obtain ⟨signer, ⟨mint, ceiling, caps⟩ | ⟨owner, action⟩⟩ := i
  · have record : l'.escrow? signer = l.escrow? signer := alike.record
    simp only [Ledger.stage, alike.setting, record]
  · have record : l'.escrow? owner = l.escrow? owner := alike.record
    simp only [Ledger.stage, escrow, alike.setting, record]

/-- What is alike to an instruction makes no difference to it. -/
theorem submit (alike : Alike i l l') (records : l.Records limits P) : Agree i l l' := by
  rcases submit_cases l i with ⟨f, unstaged, e⟩ | ⟨t, c, f, staged, unsettled, e⟩ |
    ⟨t, c, staged, settled, e⟩
  · exact .refused f e (submit_of_unstaged (alike.stage.trans unstaged))
  · -- Custody refuses on both, and is left as it was.
    obtain ⟨c', unsettled'⟩ := (records.within staged).settle_congr alike.unarmed
      alike.unarmed' alike.purses unsettled
    have there := submit_of_unsettled (alike.stage.trans staged) unsettled'
    obtain rfl := Transition.settle_error_of_unarmed alike.unarmed unsettled
    obtain rfl := Transition.settle_error_of_unarmed alike.unarmed' unsettled'
    exact .refused (.custody f) e there
  · obtain ⟨c', settled'⟩ := (records.within staged).settle_congr alike.unarmed
      alike.unarmed' alike.purses settled
    exact .written t c c' staged settled settled' e
      (submit_of_settled (alike.stage.trans staged) settled')

/-- What is independent of an instruction leaves the ledger alike to it. -/
theorem after (independent : i.Independent j) (records : l.Records limits P)
    (unarmed : l.custody.armed = none) : Alike j l (l.submit i).1 := by
  cases (Alike.refl unarmed).submit (i := i) records with
  | refused _ e _ =>
    rw [e]
    exact .refl unarmed
  | written t c _ staged settled _ e _ =>
    rw [e]
    refine ⟨rfl, ?_, fun h touched token => ?_, unarmed, Transition.armed_settle unarmed settled⟩
    · rw [escrow?_written, records.target staged, if_neg independent.targets]
    · exact (records.within staged).balance_settle settled (independent.untouched touched)

end Alike

/-! ### Numbers aside -/

/-- What an instruction announces: one event if it takes effect. -/
def announces (l : Ledger) (i : Signed) : List Event := announced [⟨l, .submit i⟩]

theorem announces_of_error {f : Fault} (e : l.submit i = (l', .error f)) :
    l.announces i = [] := by
  rw [announces, announced, filterMap_cons_toList, announced?_submit_of_error e]
  rfl

theorem announces_of_written {r : Receipt} (e : l.submit i = (l.written c t, .ok r)) :
    l.announces i = [l.announcement t] := by
  rw [announces, announced, filterMap_cons_toList, announced?_submit_of_ok e]
  rfl

theorem extends_submit (l : Ledger) (i : Signed) :
    l.journal.Extends (l.submit i).1.journal (l.announces i) :=
  (Path.single (s := .submit i) trivial).extends

/-- Numbers aside, an instruction that ends in the same way on two ledgers has the same
outcome and announces the same. -/
theorem Agree.unnumbered (agree : Agree i l l') (clock : l'.now = l.now) :
    (l'.submit i).2.map Receipt.unnumbered = (l.submit i).2.map Receipt.unnumbered ∧
      (l'.announces i).map Event.unnumbered = (l.announces i).map Event.unnumbered := by
  cases agree with
  | refused f here there =>
    rw [announces_of_error here, announces_of_error there, here, there]
    exact ⟨rfl, rfl⟩
  | written t c c' _ _ _ here there =>
    rw [announces_of_written here, announces_of_written there, here, there]
    refine ⟨rfl, ?_⟩
    rw [List.map_singleton, List.map_singleton, Event.unnumbered, Event.unnumbered,
      announcement, announcement, clock]

/-! ### Either order -/

/-- Two ledgers that hold the same, whatever their journals tell. -/
structure Level (l l' : Ledger) : Prop where
  limits : l'.limits = l.limits
  now : l'.now = l.now
  escrows : l'.escrows = l.escrows
  balance : ∀ h token, l'.custody.balance h token = l.custody.balance h token
  transfers : l'.custody.transfers = l.custody.transfers
  armed : l'.custody.armed = l.custody.armed

theorem Level.refl (l : Ledger) : Level l l := ⟨rfl, rfl, rfl, fun _ _ => rfl, rfl, rfl⟩

/-- Transitions of different escrows can be written in either order. -/
theorem level_written (unarmed : l.custody.armed = none)
    (apart : t.account.owner ≠ u.account.owner)
    (first : t.settle l.custody = (c, .ok ())) (second : u.settle c = (d, .ok ()))
    (first' : u.settle l.custody = (c', .ok ())) (second' : t.settle c' = (d', .ok ())) :
    Level ((l.written c t).written d u) ((l.written c' u).written d' t) where
  limits := rfl
  now := rfl
  escrows := by
    refine Std.ExtTreeMap.ext_getElem? fun owner => ?_
    show ((l.written c' u).written d' t).escrow? owner = ((l.written c t).written d u).escrow? owner
    rw [escrow?_written, escrow?_written, escrow?_written, escrow?_written]
    by_cases atT : t.account.owner = owner
    · rw [if_pos atT, if_pos atT, if_neg fun atU => apart (atT.trans atU.symm)]
    · rw [if_neg atT, if_neg atT]
  balance k token := by
    have one := Transition.balance_settle first k token
    have two := Transition.balance_settle second k token
    have one' := Transition.balance_settle first' k token
    have two' := Transition.balance_settle second' k token
    refine Amount.toNat_inj.1 ?_
    show (d'.balance k token).toNat = (d.balance k token).toNat
    omega
  transfers := by
    have one := Transition.transfers_settle first
    have two := Transition.transfers_settle second
    have one' := Transition.transfers_settle first'
    have two' := Transition.transfers_settle second'
    show d'.transfers = d.transfers
    rw [two', one', two, one, UInt64.add_assoc, UInt64.add_assoc]
    exact congrArg (l.custody.transfers + ·) (UInt64.add_comm _ _)
  armed := by
    have left := Transition.armed_settle (Transition.armed_settle unarmed first) second
    have left' := Transition.armed_settle (Transition.armed_settle unarmed first') second'
    exact left'.trans left.symm

/-- Two independent instructions leave the same behind in either order. -/
theorem Agree.level (independent : i.Independent j) (records : l.Records limits P)
    (unarmed : l.custody.armed = none) (first : Agree i l (l.submit j).1)
    (second : Agree j l (l.submit i).1) :
    Level ((l.submit i).1.submit j).1 ((l.submit j).1.submit i).1 := by
  cases first with
  | refused f here there =>
    -- Only the other one can have an effect, and the refusal has none.
    rw [there, here]
    exact .refl _
  | written t c d' staged settled settled' here there =>
    cases second with
    | refused f here' there' =>
      rw [there', here']
      exact .refl _
    | written u c' d staged' first' second' here' there' =>
      have apart : t.account.owner ≠ u.account.owner := by
        rw [records.target staged, records.target staged']
        exact independent.targets
      rw [here'] at settled'
      rw [here] at second'
      rw [there, there', here, here']
      exact level_written unarmed apart settled second' first' settled'

/-- **Independent instructions commute.**  In any reachable ledger without an armed
failure, take two instructions about different escrows and by different signers.  The
outcome of each is the same whether it comes first or second, and so is what it
announces, numbers aside; both orders lead to the same records, balances and count of
transfers; and the journal goes on with what was announced, in the order of the two. -/
theorem independent_commute {limits : Limits} {retention : Nat} {steps : List Step}
    {l : Ledger} {i j : Signed} (reached : (Ledger.fresh limits retention).run steps = l)
    (unarmed : l.custody.armed = none) (independent : i.Independent j) :
    let li := (l.submit i).1
    let lj := (l.submit j).1
    (lj.submit i).2.map Receipt.unnumbered = (l.submit i).2.map Receipt.unnumbered ∧
      (li.submit j).2.map Receipt.unnumbered = (l.submit j).2.map Receipt.unnumbered ∧
      Level (li.submit j).1 (lj.submit i).1 ∧
      (lj.announces i).map Event.unnumbered = (l.announces i).map Event.unnumbered ∧
      (li.announces j).map Event.unnumbered = (l.announces j).map Event.unnumbered ∧
      l.journal.Extends (li.submit j).1.journal (l.announces i ++ li.announces j) ∧
      l.journal.Extends (lj.submit i).1.journal (l.announces j ++ lj.announces i) := by
  intro li lj
  have records : l.Records limits fun _ => True := by
    rw [← reached]
    exact (Records.run (Account.invariant_true limits) retention steps).1
  have alike : Alike i l lj := .after independent.symm records unarmed
  have alike' : Alike j l li := .after independent records unarmed
  have first : Agree i l lj := alike.submit records
  have second : Agree j l li := alike'.submit records
  obtain ⟨outcome, told⟩ := first.unnumbered (congrArg Setting.now alike.setting)
  obtain ⟨outcome', told'⟩ := second.unnumbered (congrArg Setting.now alike'.setting)
  exact ⟨outcome, outcome', first.level independent records unarmed second, told, told',
    (extends_submit l i).trans (extends_submit li j),
    (extends_submit l j).trans (extends_submit lj i)⟩

/-- A run after which two owners can trade with each other's escrow. -/
def crossing : List Step :=
  [.issue (.wallet (.ofSeed 1)) .usdc ⟨100⟩,
    .issue (.wallet (.ofSeed 2)) ⟨.ofSeed 7, 6⟩ ⟨50⟩,
    .submitAll
      [⟨.ofSeed 1, .create .usdc 0 .unlimited⟩,
        ⟨.ofSeed 2, .create ⟨.ofSeed 7, 6⟩ 0 .unlimited⟩,
        ⟨.ofSeed 1, .act (.ofSeed 1) (.deposit ⟨60⟩)⟩,
        ⟨.ofSeed 2, .act (.ofSeed 2) (.deposit ⟨30⟩)⟩,
        ⟨.ofSeed 1, .act (.ofSeed 1) (.delegate .trading (.ofSeed 2))⟩,
        ⟨.ofSeed 2, .act (.ofSeed 2) (.delegate .trading (.ofSeed 1))⟩],
    .setTime ⟨300⟩]

/-- Each of them trades, and it does not matter who comes first. -/
theorem crossing_either_order :
    let l := (Ledger.fresh .standard 8).run crossing
    let i : Signed := ⟨.ofSeed 2, .act (.ofSeed 1) (.trade ⟨20⟩ 0 ⟨300⟩)⟩
    let j : Signed := ⟨.ofSeed 1, .act (.ofSeed 2) (.trade ⟨10⟩ 0 ⟨300⟩)⟩
    l.custody.armed = none ∧ i.Independent j ∧
      (l.submit i).2.toOption = some ⟨7, .ofSeed 1, ⟨40⟩, 1⟩ ∧
      ((l.submit j).1.submit i).2.toOption = some ⟨8, .ofSeed 1, ⟨40⟩, 1⟩ ∧
      ((l.submit j).1.submit i).2.map Receipt.unnumbered =
        (l.submit i).2.map Receipt.unnumbered ∧
      Level ((l.submit i).1.submit j).1 ((l.submit j).1.submit i).1 := by
  intro l i j
  have unarmed : l.custody.armed = none := by decide +kernel
  have independent : i.Independent j := ⟨by decide +kernel, by decide +kernel⟩
  obtain ⟨outcome, -, level, -⟩ := independent_commute rfl unarmed independent
  exact ⟨unarmed, independent, by decide +kernel, by decide +kernel, outcome, level⟩

end Ledger

end DelegatedEscrow
