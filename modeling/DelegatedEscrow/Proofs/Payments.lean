/-
DelegatedEscrow/Proofs/Payments.lean

How much can be paid.  Five actions move an amount that their signer chooses, and each of
them has checks of the amount in three places: in its rule, in the record and in custody.
Together they come to an interval.  Apart from the amount there is a gate, and if that is
open, an amount is accepted exactly if

    1  ≤  amount  ≤  room,      room  =  the least of all that is left of the bounds

where a bound is a pair of what there is in all and what of it is spoken for.  In a record
that a run brings about no bound is overdrawn, so that what is left is the plain
difference.

The bounds of a payment are fewer than the checks.  An outflow also raises a total and may
use up a nonce, but in a record whose counts are in order the balance runs out first.
-/
import DelegatedEscrow.Proofs.Allowance
import DelegatedEscrow.Proofs.Headroom

namespace DelegatedEscrow

/-! ### Bounds -/

/-- The largest amount, in base units. -/
def Amount.largest : Nat := UInt64.size - 1

theorem Amount.le_largest_iff {n : Nat} : n ≤ largest ↔ n < UInt64.size :=
  Nat.le_sub_one_iff_lt (by decide)

theorem Amount.toNat_le_largest (a : Amount) : a.toNat ≤ largest :=
  le_largest_iff.2 a.toNat_lt

/-- A bound on an amount: of `whole` units `used` are spoken for. -/
structure Bound where
  whole : Nat
  used : Nat

namespace Bound

/-- What is left of a bound. -/
def left (b : Bound) : Nat := b.whole - b.used

/-- So many units more can be used. -/
def Admits (b : Bound) (n : Nat) : Prop := b.used + n ≤ b.whole

/-- What a total can still grow by under a cap, if there is one. -/
def ofCap (cap : Option Amount) (total : Amount) : List Bound :=
  (cap.map fun c => ⟨c.toNat, total.toNat⟩).toList

/-- What is left of all bounds of a list, which is the least of what is left of each. -/
def room (bounds : List Bound) : Nat := (bounds.map left).min?.getD 0

variable {b : Bound} {bounds : List Bound} {cap : Option Amount} {total : Amount} {n : Nat}

theorem admits_iff_le_left (positive : 0 < n) : b.Admits n ↔ n ≤ b.left := by
  unfold Admits left
  omega

@[simp] theorem forall_ofCap {p : Bound → Prop} :
    (∀ b ∈ ofCap cap total, p b) ↔ ∀ c, cap = some c → p ⟨c.toNat, total.toNat⟩ := by
  cases cap <;> simp [ofCap]

theorem le_room_iff (nonempty : bounds ≠ []) (positive : 0 < n) :
    n ≤ room bounds ↔ ∀ b ∈ bounds, b.Admits n := by
  rcases least : (bounds.map left).min? with - | m
  · rw [List.min?_eq_none_iff, List.map_eq_nil_iff] at least
    exact absurd least nonempty
  · rw [room, least, Option.getD_some, List.le_min?_iff least]
    simp only [List.forall_mem_map, admits_iff_le_left positive]

end Bound

/-! ### Payments -/

/-- The ways in which an amount is paid into an escrow or out of it. -/
inductive Payment where
  | deposit
  | withdraw
  | emergencyWithdraw
  | collectFee (nonce : Nonce)
  | trade (nonce : Nonce) (deadline : Timestamp)
deriving DecidableEq, Repr

/-- A delegate may spend under an authority, as far as that does not depend on the amount. -/
def Account.OpenTo (s : Setting) (signer : Identity) (a : Account) (k : Authority)
    (nonce : Nonce) : Prop :=
  a.status = .active ∧ (a.slot k).delegate? = some signer ∧
    (a.slot k).Mature s.now s.limits.lockAge ∧ nonce = a.nonce

namespace Payment

/-- The action that pays an amount. -/
def action (p : Payment) (amount : Amount) : Action :=
  match p with
  | deposit => .deposit amount
  | withdraw => .withdraw amount
  | emergencyWithdraw => .emergencyWithdraw amount
  | collectFee nonce => .collectFee amount nonce
  | trade nonce deadline => .trade amount nonce deadline

/-- The instruction that pays an amount. -/
def signed (p : Payment) (owner signer : Identity) (amount : Amount) : Signed :=
  ⟨signer, .act owner (p.action amount)⟩

/-- All that is asked apart from the amount. -/
def Gate (s : Setting) (signer : Identity) (a : Account) : Payment → Prop
  | deposit => signer = a.owner ∧ a.status = .active ∧ ¬ a.Expired s.now
  | withdraw => signer = a.owner ∧ a.status = .active ∧ ¬ a.Delegated
  | emergencyWithdraw => signer = a.owner ∧ a.status = .paused ∧ ¬ a.Delegated
  | collectFee nonce => a.OpenTo s signer .platform nonce
  | trade nonce deadline => a.OpenTo s signer .trading nonce ∧ s.now ≤ deadline

/-- Who supplies the tokens. -/
def source (owner signer : Identity) : Payment → Holder
  | deposit => .wallet signer
  | _ => .vault owner

/-- Who receives the tokens. -/
def target (owner signer : Identity) : Payment → Holder
  | deposit => .vault owner
  | _ => .wallet signer

/-- The bounds that the record and the limits set. -/
def bookings (limits : Limits) (a : Account) : Payment → List Bound
  | deposit =>
    [⟨a.ceiling.toNat, a.balance.toNat⟩, ⟨Amount.largest, a.totals.deposited.toNat⟩] ++
      Bound.ofCap a.caps.deposits a.totals.deposited
  | withdraw | emergencyWithdraw => [⟨a.balance.toNat, 0⟩]
  | collectFee _ => [⟨a.balance.toNat, 0⟩, ⟨limits.feeCap.toNat, 0⟩]
  | trade _ _ =>
    [⟨a.balance.toNat, 0⟩, ⟨limits.tradeCap.toNat, 0⟩] ++
      Bound.ofCap a.caps.traded a.totals.traded

/-- The bounds that custody sets: the tokens at the source and the space at the target. -/
def purses (c : Custody) (owner signer token : Identity) (p : Payment) : List Bound :=
  [⟨(c.balance (p.source owner signer) token).toNat, 0⟩,
    ⟨Amount.largest, (c.balance (p.target owner signer) token).toNat⟩]

/-- All bounds on the amount. -/
def bounds (l : Ledger) (signer : Identity) (a : Account) (p : Payment) : List Bound :=
  p.bookings l.limits a ++ p.purses l.custody a.owner signer a.mint.id

end Payment

/-! ### Which amounts a rule lets through -/

namespace Account

variable {a : Account} {s : Setting} {signer : Identity} {k : Authority} {amount : Amount}
variable {nonce : Nonce}

theorem deposit_accepts_iff :
    (∃ t, a.deposit s signer amount = .ok t) ↔
      (signer = a.owner ∧ a.status = .active ∧ ¬ a.Expired s.now) ∧ 0 < amount.toNat ∧
        a.balance.toNat + amount.toNat ≤ a.ceiling.toNat ∧
        a.totals.deposited.toNat + amount.toNat < UInt64.size ∧
        ∀ cap, a.caps.deposits = some cap →
          a.totals.deposited.toNat + amount.toNat ≤ cap.toNat := by
  constructor
  · rintro ⟨t, h⟩
    obtain ⟨owns, active, positive, unexpired, balance, hb, below, deposited, hd, capped, -⟩ :=
      deposit_eq_ok_iff.1 h
    refine ⟨⟨owns, active, unexpired⟩, positive, ?_, ?_, fun cap chosen => ?_⟩
    · rw [← hb]
      exact below
    · rw [← hd]
      exact deposited.toNat_lt
    · rw [← hd]
      exact capped cap chosen
  · rintro ⟨⟨owns, active, unexpired⟩, positive, below, room, capped⟩
    -- A balance below the ceiling fits into a word, so that its sum cannot overflow.
    have held := a.ceiling.toNat_lt
    obtain ⟨balance, hb⟩ := Amount.exists_toNat (Nat.lt_of_le_of_lt below held)
    obtain ⟨deposited, hd⟩ := Amount.exists_toNat room
    refine ⟨_, deposit_eq_ok_iff.2 ⟨owns, active, positive, unexpired, balance, hb, ?_, deposited,
      hd, fun cap chosen => ?_, rfl⟩⟩
    · rw [Amount.le_iff_toNat_le, hb]
      exact below
    · rw [Amount.le_iff_toNat_le, hd]
      exact capped cap chosen

/-- What is covered by the balance has room in each of the totals of outflow. -/
theorem Sound.exists_sums (sound : a.Sound) (covered : amount.toNat ≤ a.balance.toNat) :
    (∃ balance : Amount, balance.toNat + amount.toNat = a.balance.toNat) ∧
      (∃ withdrawn : Amount, withdrawn.toNat = a.totals.withdrawn.toNat + amount.toNat) ∧
      (∃ fees : Amount, fees.toNat = a.totals.fees.toNat + amount.toNat) ∧
      ∃ traded : Amount, traded.toNat = a.totals.traded.toNat + amount.toNat := by
  have accounted := sound.deposited_eq
  have bound := a.totals.deposited.toNat_lt
  have held := a.balance.toNat_lt
  -- No total passes the deposits, which are what is left together with all that went out.
  rw [Totals.outflow] at accounted
  obtain ⟨balance, left⟩ : ∃ x : Amount, x.toNat = a.balance.toNat - amount.toNat :=
    Amount.exists_toNat (by omega)
  exact ⟨⟨balance, by omega⟩, Amount.exists_toNat (by omega), Amount.exists_toNat (by omega),
    Amount.exists_toNat (by omega)⟩

theorem takeBack_accepts_iff (sound : a.Sound) {flow : Flow} :
    (∃ t, a.takeBack signer flow amount = .ok t) ↔
      ¬ a.Delegated ∧ 0 < amount.toNat ∧ amount.toNat ≤ a.balance.toNat := by
  constructor
  · rintro ⟨t, h⟩
    obtain ⟨positive, free, balance, hb, -⟩ := takeBack_eq_ok_iff.1 h
    exact ⟨free, positive, by omega⟩
  · rintro ⟨free, positive, covered⟩
    obtain ⟨⟨balance, hb⟩, ⟨withdrawn, hw⟩, -⟩ := sound.exists_sums covered
    exact ⟨_, takeBack_eq_ok_iff.2 ⟨positive, free, balance, hb, withdrawn, hw, rfl⟩⟩

theorem requireSpendable_iff_openTo :
    a.requireSpendable s signer k amount nonce = .ok () ↔
      a.OpenTo s signer k nonce ∧ 0 < amount.toNat := by
  rw [requireSpendable_eq_ok_iff]
  constructor
  · rintro ⟨active, taken, positive, mature, next⟩
    exact ⟨⟨active, taken, mature, next⟩, positive⟩
  · rintro ⟨⟨active, taken, mature, next⟩, positive⟩
    exact ⟨active, taken, positive, mature, next⟩

theorem collectFee_accepts_iff (sound : a.Sound) (paced : a.Paced) :
    (∃ t, a.collectFee s signer amount nonce = .ok t) ↔
      a.OpenTo s signer .platform nonce ∧ 0 < amount.toNat ∧
        amount.toNat ≤ a.balance.toNat ∧ amount ≤ s.limits.feeCap := by
  simp only [collectFee_eq_ok_iff, requireSpendable_iff_openTo]
  constructor
  · rintro ⟨t, ⟨unlocked, positive⟩, below, balance, hb, -⟩
    exact ⟨unlocked, positive, by omega, below⟩
  · rintro ⟨unlocked, positive, covered, below⟩
    obtain ⟨⟨balance, hb⟩, -, ⟨fees, hf⟩, -⟩ := sound.exists_sums covered
    -- Each nonce has cost a unit at least, so there is one to spare while there are units.
    have spare := paced.nonce_ne_last sound (Nat.lt_of_lt_of_le positive covered)
    exact ⟨_, ⟨unlocked, positive⟩, below, balance, hb, fees, hf, spare, rfl⟩

theorem trade_accepts_iff (sound : a.Sound) (paced : a.Paced) {deadline : Timestamp} :
    (∃ t, a.trade s signer amount nonce deadline = .ok t) ↔
      (a.OpenTo s signer .trading nonce ∧ s.now ≤ deadline) ∧ 0 < amount.toNat ∧
        amount.toNat ≤ a.balance.toNat ∧ amount ≤ s.limits.tradeCap ∧
        ∀ cap, a.caps.traded = some cap → a.totals.traded.toNat + amount.toNat ≤ cap.toNat := by
  simp only [trade_eq_ok_iff, requireSpendable_iff_openTo]
  constructor
  · rintro ⟨t, ⟨unlocked, positive⟩, early, below, traded, ht, capped, balance, hb, -⟩
    refine ⟨⟨unlocked, early⟩, positive, by omega, below, fun cap chosen => ?_⟩
    rw [← ht]
    exact capped cap chosen
  · rintro ⟨⟨unlocked, early⟩, positive, covered, below, capped⟩
    obtain ⟨⟨balance, hb⟩, -, -, ⟨traded, ht⟩⟩ := sound.exists_sums covered
    have spare := paced.nonce_ne_last sound (Nat.lt_of_lt_of_le positive covered)
    refine ⟨_, ⟨unlocked, positive⟩, early, below, traded, ht, fun cap chosen => ?_, balance, hb,
      spare, rfl⟩
    rw [Amount.le_iff_toNat_le, ht]
    exact capped cap chosen

end Account

namespace Payment

variable {p : Payment} {s : Setting} {owner signer token : Identity} {a : Account}
variable {amount : Amount} {t : Transition} {c : Custody} {n : Nat}

/-- A rule lets an amount through if its gate is open and its bounds admit the amount. -/
theorem stage_accepts_iff (sound : a.Sound) (paced : a.Paced) :
    (∃ t, (p.action amount).stage s signer a = .ok t) ↔
      p.Gate s signer a ∧ 0 < amount.toNat ∧
        ∀ b ∈ p.bookings s.limits a, b.Admits amount.toNat := by
  cases p with
  | deposit =>
    refine Account.deposit_accepts_iff.trans (and_congr_right fun _ => and_congr_right fun _ => ?_)
    simp [bookings, Bound.Admits, Amount.le_largest_iff]
  | withdraw =>
    simp only [action, Action.stage, Account.withdraw_eq_ok_iff, exists_and_left,
      Account.takeBack_accepts_iff sound, Gate, bookings, List.forall_mem_singleton, Bound.Admits,
      Nat.zero_add, and_assoc]
  | emergencyWithdraw =>
    simp only [action, Action.stage, Account.emergencyWithdraw_eq_ok_iff, exists_and_left,
      Account.takeBack_accepts_iff sound, Gate, bookings, List.forall_mem_singleton, Bound.Admits,
      Nat.zero_add, and_assoc]
  | collectFee nonce =>
    refine (Account.collectFee_accepts_iff sound paced).trans
      (and_congr_right fun _ => and_congr_right fun _ => ?_)
    simp [bookings, Bound.Admits, Amount.le_iff_toNat_le]
  | trade nonce deadline =>
    refine (Account.trade_accepts_iff sound paced).trans
      (and_congr_right fun _ => and_congr_right fun _ => ?_)
    simp [bookings, Bound.Admits, Amount.le_iff_toNat_le]

/-- The transition of a payment moves the amount, in the token of the escrow. -/
theorem movement_stage (h : (p.action amount).stage s signer a = .ok t) :
    t.movement = some ⟨p.source a.owner signer, p.target a.owner signer, amount⟩ ∧
      t.account.mint = a.mint := by
  refine ⟨?_, (Action.stage_effect h).terms.mint⟩
  cases p with
  | deposit =>
    obtain ⟨-, -, -, -, _, -, -, _, -, -, rfl⟩ := Account.deposit_eq_ok_iff.1 h
    rfl
  | withdraw =>
    obtain ⟨-, -, taken⟩ := Account.withdraw_eq_ok_iff.1 h
    obtain ⟨-, -, _, -, _, -, rfl⟩ := Account.takeBack_eq_ok_iff.1 taken
    rfl
  | emergencyWithdraw =>
    obtain ⟨-, -, taken⟩ := Account.emergencyWithdraw_eq_ok_iff.1 h
    obtain ⟨-, -, _, -, _, -, rfl⟩ := Account.takeBack_eq_ok_iff.1 taken
    rfl
  | collectFee nonce =>
    obtain ⟨-, -, _, -, _, -, -, rfl⟩ := Account.collectFee_eq_ok_iff.1 h
    rfl
  | trade nonce deadline =>
    obtain ⟨-, -, -, _, -, -, _, -, -, rfl⟩ := Account.trade_eq_ok_iff.1 h
    rfl

/-- No payment goes from a purse to itself. -/
theorem source_ne_target (p : Payment) (owner signer : Identity) :
    p.source owner signer ≠ p.target owner signer := by
  cases p <;> simp [source, target]

/-- Custody lets an amount through if it is there and there is space for it. -/
theorem settle_accepts_iff (unarmed : c.armed = none)
    (h : (p.action amount).stage s signer a = .ok t) :
    (∃ d, t.settle c = (d, .ok ())) ↔
      ∀ b ∈ p.purses c a.owner signer a.mint.id, b.Admits amount.toNat := by
  obtain ⟨movement, mint⟩ := movement_stage h
  rw [Transition.settle_of_some movement, mint,
    Custody.transfer_ok_iff unarmed (p.source_ne_target a.owner signer)]
  simp [purses, Bound.Admits, Amount.le_largest_iff]

/-- In a sound record that has kept its caps, no bound is overdrawn. -/
theorem used_le_whole {l : Ledger} (sound : a.Sound) (capped : a.Capped) :
    ∀ b ∈ p.bounds l signer a, b.used ≤ b.whole := by
  have purses : ∀ b ∈ p.purses l.custody a.owner signer a.mint.id, b.used ≤ b.whole := by
    simp [Payment.purses, Amount.toNat_le_largest]
  have bookings : ∀ b ∈ p.bookings l.limits a, b.used ≤ b.whole := by
    cases p with
    | deposit =>
      have below : a.balance.toNat ≤ a.ceiling.toNat := sound.balance_le
      refine List.forall_mem_append.2 ⟨?_, Bound.forall_ofCap.2 capped.deposits⟩
      simp [below, Amount.toNat_le_largest]
    | trade nonce deadline =>
      refine List.forall_mem_append.2 ⟨?_, Bound.forall_ofCap.2 capped.traded⟩
      simp
    | _ => simp [Payment.bookings]
  exact List.forall_mem_append.2 ⟨bookings, purses⟩

end Payment

/-! ### Which amounts a ledger accepts -/

namespace Ledger

variable {l : Ledger} {p : Payment} {owner signer : Identity} {amount : Amount}
variable {limits : Limits}

/-- An action is accepted if its rule lets it through and custody does. -/
theorem accepts_act_iff {action : Action} :
    (∃ r, (l.submit ⟨signer, .act owner action⟩).2 = .ok r) ↔
      ∃ a, l.escrow? owner = some a ∧ ∃ t, action.stage l.setting signer a = .ok t ∧
        ∃ c, t.settle l.custody = (c, .ok ()) := by
  constructor
  · rintro ⟨r, accepted⟩
    obtain ⟨t, c, staged, settled, -, -⟩ := submit_eq_ok (Prod.ext rfl accepted)
    obtain ⟨a, found, acted⟩ := stage_act_eq_ok_iff.1 staged
    exact ⟨a, found, t, acted, c, settled⟩
  · rintro ⟨a, found, t, acted, c, settled⟩
    rw [submit_of_settled (stage_act_eq_ok_iff.2 ⟨a, found, acted⟩) settled]
    exact ⟨_, rfl⟩

/-- A payment is accepted if its gate is open and all of its bounds admit the amount. -/
theorem Records.pays_iff (records : l.Records limits fun a => a.Sound ∧ a.Paced)
    (unarmed : l.custody.armed = none) :
    (∃ r, (l.submit (p.signed owner signer amount)).2 = .ok r) ↔
      ∃ a, l.escrow? owner = some a ∧ p.Gate l.setting signer a ∧ 0 < amount.toNat ∧
        ∀ b ∈ p.bounds l signer a, b.Admits amount.toNat := by
  rw [Payment.signed, accepts_act_iff]
  refine exists_congr fun a => and_congr_right fun found => ?_
  obtain ⟨sound, paced⟩ := records.each found
  rw [Payment.bounds, List.forall_mem_append]
  constructor
  · rintro ⟨t, acted, settled⟩
    obtain ⟨gate, positive, bookings⟩ := (Payment.stage_accepts_iff sound paced).1 ⟨t, acted⟩
    exact ⟨gate, positive, bookings, (Payment.settle_accepts_iff unarmed acted).1 settled⟩
  · rintro ⟨gate, positive, bookings, purses⟩
    obtain ⟨t, acted⟩ := (Payment.stage_accepts_iff sound paced).2 ⟨gate, positive, bookings⟩
    exact ⟨t, acted, (Payment.settle_accepts_iff unarmed acted).2 purses⟩

/-- **How much can be paid.**  In any reachable ledger without an armed failure, a payment
is accepted just if there is an escrow whose gate is open, and the amount is at least one
and at most the room that is left.  That room is the least of plain differences, none of
them cut off at zero.  For all payments but deposits, it makes no difference whether an
escrow has expired. -/
theorem acceptable_amounts {limits : Limits} {retention : Nat} {steps : List Step} {l : Ledger}
    (reached : (Ledger.fresh limits retention).run steps = l)
    (unarmed : l.custody.armed = none) (p : Payment) (owner signer : Identity) :
    (∀ amount, (∃ r, (l.submit (p.signed owner signer amount)).2 = .ok r) ↔
        ∃ a, l.escrow? owner = some a ∧ p.Gate l.setting signer a ∧
          1 ≤ amount.toNat ∧ amount.toNat ≤ Bound.room (p.bounds l signer a)) ∧
      ∀ a, l.escrow? owner = some a →
        (∀ b ∈ p.bounds l signer a, b.used ≤ b.whole) ∧
          (p ≠ .deposit → ∀ lifetime,
            (p.Gate l.setting signer { a with lifetime } ↔ p.Gate l.setting signer a) ∧
              p.bounds l signer { a with lifetime } = p.bounds l signer a) := by
  have records : l.Records limits fun a => a.Sound ∧ a.Paced := by
    rw [← reached]
    exact (Records.run (Account.sound_paced_invariant limits) retention steps).1
  have kept : l.Records limits Account.Capped := by
    rw [← reached]
    exact (Records.run (Account.capped_invariant limits) retention steps).1
  refine ⟨fun amount => ?_, fun a found => ⟨?_, fun other lifetime => ?_⟩⟩
  · refine (records.pays_iff unarmed).trans (exists_congr fun a => and_congr_right fun _ =>
      and_congr_right fun _ => and_congr_right fun positive => ?_)
    have nonempty : p.bounds l signer a ≠ [] := by simp [Payment.bounds, Payment.purses]
    exact (Bound.le_room_iff nonempty positive).symm
  · exact Payment.used_le_whole (records.each found).1 (kept.each found)
  · cases p with
    | deposit => exact absurd rfl other
    | _ => exact ⟨Iff.rfl, rfl⟩

/-- A run after which a trader with a cap of 20 on all trades has 12 behind it, and can trade
once more in the second in which its lock has elapsed. -/
def stint : List Step :=
  [.issue (.wallet (.ofSeed 1)) .usdc ⟨100⟩,
    .submit ⟨.ofSeed 1, .create .usdc 0 ⟨none, some ⟨20⟩⟩⟩,
    .submit ⟨.ofSeed 1, .act (.ofSeed 1) (.deposit ⟨60⟩)⟩,
    .submit ⟨.ofSeed 1, .act (.ofSeed 1) (.delegate .trading (.ofSeed 200))⟩,
    .setTime ⟨300⟩,
    .submit ⟨.ofSeed 200, .act (.ofSeed 1) (.trade ⟨12⟩ 0 ⟨300⟩)⟩]

/-- The record at its end. -/
def trader : Account where
  owner := .ofSeed 1
  mint := .usdc
  platform := .empty
  trading := .delegated (.ofSeed 200) ⟨0⟩
  status := .active
  balance := ⟨48⟩
  ceiling := Limits.standard.defaultCeiling
  caps := ⟨none, some ⟨20⟩⟩
  lifetime := none
  createdAt := ⟨0⟩
  pausedAt := none
  nonce := 1
  totals := ⟨⟨60⟩, 0, 0, ⟨12⟩⟩

/-- What is left of the cap is the room: 8 units can be traded, and 9 cannot. -/
theorem stint_room :
    let l := (Ledger.fresh .standard 8).run stint
    let p := Payment.trade 1 ⟨300⟩
    l.custody.armed = none ∧ Bound.room (p.bounds l (.ofSeed 200) trader) = 8 ∧
      (∃ r, (l.submit (p.signed (.ofSeed 1) (.ofSeed 200) ⟨8⟩)).2 = .ok r) ∧
      ¬ ∃ r, (l.submit (p.signed (.ofSeed 1) (.ofSeed 200) ⟨9⟩)).2 = .ok r := by
  intro l p
  have unarmed : l.custody.armed = none := by decide +kernel
  have found : l.escrow? (.ofSeed 1) = some trader := by decide +kernel
  have room : Bound.room (p.bounds l (.ofSeed 200) trader) = 8 := by decide +kernel
  have gate : p.Gate l.setting (.ofSeed 200) trader :=
    ⟨⟨rfl, rfl, by decide +kernel, rfl⟩, by decide +kernel⟩
  obtain ⟨accepts, -⟩ := acceptable_amounts rfl unarmed p (.ofSeed 1) (.ofSeed 200)
  refine ⟨unarmed, room, ?_, ?_⟩
  · refine (accepts ⟨8⟩).2 ⟨trader, found, gate, by decide, ?_⟩
    rw [room]
    decide
  · intro accepted
    obtain ⟨a, found', -, -, below⟩ := (accepts ⟨9⟩).1 accepted
    obtain rfl : trader = a := Option.some.inj (found.symm.trans found')
    rw [room] at below
    exact absurd below (by decide)

end Ledger

end DelegatedEscrow
