/-
DelegatedEscrow/Proofs/Timers.lean

The timers in whole numbers.  A timer is two differences of words, each of them
held at the ends of the range, and either may be clipped when the clock has been
moved far away.  Clipping never decides anything: for a span that is not
negative,

    remaining start now d  =  min (largest word) (max 0 (d - (now - start)))

with ordinary integers on the right, so that a timer has run out exactly when the
span has passed, and a later look at it never shows more (`Countdown`).  Limits that
have been checked have no negative spans, and a ledger that was started has limits
that have been checked.

The lifetime of an escrow is not a timer but one comparison, with a difference that
may be clipped as well.  There clipping decides at one point only: nothing outlives
the largest word, so a lifetime of that length never ends.
-/
import DelegatedEscrow.Ledger
import DelegatedEscrow.Proofs.Rules

namespace DelegatedEscrow

namespace Timestamp

variable {start now : Timestamp} {d : Seconds}

/-- **A timer is exact**, whatever the two readings of the clock. -/
theorem toInt_remaining_eq (positive : 0 ≤ d.toInt) :
    (remaining start now d).toInt =
      min Int64.maxValue.toInt (max 0 (d.toInt - (now.toInt - start.toInt))) := by
  have lowest : Int64.minValue.toInt = -9223372036854775808 := by decide
  have largest : Int64.maxValue.toInt = 9223372036854775807 := by decide
  have bound : d.toInt ≤ Int64.maxValue.toInt := d.toInt_le
  rw [toInt_remaining]
  unfold Seconds.clamp
  -- A clipped difference is beyond every span: `now - start` above the range leaves
  -- nothing, below the range it leaves more than a word holds.
  omega

theorem remaining_le_zero_iff (positive : 0 ≤ d.toInt) :
    remaining start now d ≤ 0 ↔ d.toInt ≤ now.toInt - start.toInt := by
  have largest : Int64.maxValue.toInt = 9223372036854775807 := by decide
  rw [Int64.le_iff_toInt_le, toInt_remaining_eq positive, Int64.toInt_zero]
  omega

theorem remaining_eq_zero_iff (positive : 0 ≤ d.toInt) :
    remaining start now d = 0 ↔ d.toInt ≤ now.toInt - start.toInt := by
  have largest : Int64.maxValue.toInt = 9223372036854775807 := by decide
  rw [← Int64.toInt_inj, toInt_remaining_eq positive, Int64.toInt_zero]
  omega

/-- As the clock goes on, less is left. -/
theorem remaining_le_remaining {later : Timestamp} (h : now ≤ later) :
    remaining start later d ≤ remaining start now d := by
  have elapsed : now.toInt - start.toInt ≤ later.toInt - start.toInt :=
    Int.sub_le_sub_right h _
  have left := Seconds.clamp_le_clamp
    (Int.sub_le_sub_left (Seconds.clamp_le_clamp elapsed) d.toInt)
  rw [Int64.le_iff_toInt_le, toInt_remaining, toInt_remaining]
  omega

end Timestamp

/-- What `left` shows at each reading of the clock is the rest of a span `d` that began at
`start`, in whole numbers and as far as a word holds it. -/
structure Countdown (left : Timestamp → Seconds) (start : Timestamp) (d : Seconds) : Prop where
  toInt_eq : ∀ now, (left now).toInt =
    min Int64.maxValue.toInt (max 0 (d.toInt - (now.toInt - start.toInt)))
  eq_zero_iff : ∀ now, left now = 0 ↔ d.toInt ≤ now.toInt - start.toInt
  antitone : ∀ now later, now ≤ later → left later ≤ left now

theorem Timestamp.countdown_remaining {start : Timestamp} {d : Seconds}
    (positive : 0 ≤ d.toInt) : Countdown (fun now => remaining start now d) start d where
  toInt_eq _ := toInt_remaining_eq positive
  eq_zero_iff _ := remaining_eq_zero_iff positive
  antitone _ _ h := remaining_le_remaining h

/-- A slot is mature when its delegate has waited for the whole lock. -/
theorem Slot.mature_delegated_iff {d : Identity} {start now : Timestamp} {age : Seconds}
    (positive : 0 ≤ age.toInt) :
    (Slot.delegated d start).Mature now age ↔ age.toInt ≤ now.toInt - start.toInt := by
  show some (Timestamp.remaining start now age) = some 0 ↔ _
  rw [Option.some.injEq]
  exact Timestamp.remaining_eq_zero_iff positive

/-- A pause has cooled down when the whole cooldown has passed since. -/
theorem Account.cooled_iff {a : Account} {p now : Timestamp} {cooldown : Seconds}
    (positive : 0 ≤ cooldown.toInt) (paused : a.pausedAt = some p) :
    a.cooldownRemaining now cooldown ≤ 0 ↔ cooldown.toInt ≤ now.toInt - p.toInt := by
  rw [cooldownRemaining, paused]
  exact Timestamp.remaining_le_zero_iff positive

/-! ### Lifetimes -/

namespace Account

variable {a : Account} {now later : Timestamp}

/-- An escrow has expired when it is older than its lifetime, unless the lifetime is one of
those that never end. -/
theorem expired_iff :
    a.Expired now ↔ ∃ l, a.lifetime = some l ∧ l ≠ 0 ∧ l < Int64.maxValue ∧
      l.toInt < now.toInt - a.createdAt.toInt := by
  unfold Expired
  cases a.lifetime with
  | none => simp
  | some l =>
    have outlived : l < now.since a.createdAt ↔
        l.toInt < now.toInt - a.createdAt.toInt ∧ l < Int64.maxValue := by
      rw [Int64.lt_iff_toInt_lt, Timestamp.toInt_since, Seconds.lt_clamp_iff]
    constructor
    · rintro ⟨ends, old⟩
      obtain ⟨older, below⟩ := outlived.1 old
      exact ⟨l, rfl, ends, below, older⟩
    · rintro ⟨_, same, ends, below, older⟩
      obtain rfl := Option.some.inj same
      exact ⟨ends, outlived.2 ⟨older, below⟩⟩

/-- As the clock goes on, an escrow that has expired stays so. -/
theorem Expired.mono (h : now ≤ later) (expired : a.Expired now) : a.Expired later := by
  obtain ⟨l, lifetime, ends, below, older⟩ := expired_iff.1 expired
  have order : now.toInt ≤ later.toInt := h
  exact expired_iff.2 ⟨l, lifetime, ends, below, by omega⟩

end Account

/-! ### The time-lock, the cooldown and the lifetime -/

/-- **The timers mean what they say**, at every reading of the clock.  The time-lock of a
delegation and the cooldown of a pause show what is left of a span that is not negative, in
whole numbers, and so they show nothing exactly when the span has passed.  An escrow expires
exactly when it is older than its lifetime, and then for good. -/
theorem timers_are_exact :
    (∀ (start : Timestamp) (d : Seconds), 0 ≤ d →
      (∀ delegate : Identity, ∃ left : Timestamp → Seconds,
        (∀ now, (Slot.delegated delegate start).lockRemaining? now d = some (left now)) ∧
        (∀ now, (Slot.delegated delegate start).Mature now d ↔ left now = 0) ∧
          Countdown left start d) ∧
      ∀ a : Account, a.pausedAt = some start →
        Countdown (fun now => a.cooldownRemaining now d) start d) ∧
    ∀ a : Account,
      (∀ l, a.lifetime = some l → 0 < l → l < Int64.maxValue →
        ∀ now, a.Expired now ↔ l.toInt < now.toInt - a.createdAt.toInt) ∧
      (a.lifetime = none ∨ a.lifetime = some 0 ∨ a.lifetime = some Int64.maxValue →
        ∀ now, ¬ a.Expired now) ∧
      ∀ now later, now ≤ later → a.Expired now → a.Expired later := by
  constructor
  · intro start d positive
    have span : 0 ≤ d.toInt := by
      rwa [Int64.le_iff_toInt_le, Int64.toInt_zero] at positive
    have counts : Countdown (fun now => Timestamp.remaining start now d) start d :=
      Timestamp.countdown_remaining span
    constructor
    · intro delegate
      exact ⟨_, fun _ => rfl, fun _ => Option.some_inj, counts⟩
    · intro a paused
      simpa only [Account.cooldownRemaining, paused] using counts
  · intro a
    refine ⟨?_, ?_, fun _ _ => Account.Expired.mono⟩
    · intro l lifetime ends below now
      rw [Account.expired_iff]
      constructor
      · rintro ⟨_, is, -, -, older⟩
        obtain rfl := Option.some.inj (lifetime.symm.trans is)
        exact older
      · intro older
        exact ⟨l, lifetime, (Int64.ne_of_lt ends).symm, below, older⟩
    · intro endless now expired
      obtain ⟨l, lifetime, ends, below, -⟩ := Account.expired_iff.1 expired
      rw [lifetime] at endless
      rcases endless with never | zero | largest
      · cases never
      · exact ends (Option.some.inj zero)
      · exact absurd (Option.some.inj largest) (Int64.ne_of_lt below)

/-- An escrow as old as the clock.  It was paused at the reading 1000, and its lifetime is the
longest that ends. -/
def ancient : Account :=
  { Account.new (.ofSeed 1) .usdc 0 .unlimited ⟨Int64.minValue⟩ with
    lifetime := some (Int64.maxValue - 1)
    pausedAt := some ⟨1000⟩ }

/-- Readings at both ends of the range: at the first of them more is left of a lock or a
cooldown than a word holds, and at the last nothing is.  The lifetime ends halfway between. -/
theorem ancient_at_both_ends :
    let slot := Slot.delegated (.ofSeed 7) ⟨1000⟩
    (slot.lockRemaining? ⟨Int64.minValue⟩ 300 = some Int64.maxValue ∧
      ¬ slot.Mature ⟨1299⟩ 300 ∧ slot.Mature ⟨1300⟩ 300 ∧ slot.Mature ⟨Int64.maxValue⟩ 300) ∧
    (ancient.cooldownRemaining ⟨Int64.minValue⟩ 300 = Int64.maxValue ∧
      ancient.cooldownRemaining ⟨Int64.maxValue⟩ 300 = 0) ∧
    ¬ ancient.Expired ⟨-2⟩ ∧ ancient.Expired ⟨-1⟩ ∧ ancient.Expired ⟨Int64.maxValue⟩ := by
  intro slot
  obtain ⟨timers, lifetimes⟩ := timers_are_exact
  obtain ⟨locks, cooldowns⟩ := timers ⟨1000⟩ 300 (by decide)
  obtain ⟨left, shows, mature, lock⟩ := locks (.ofSeed 7)
  have unlocked := fun now => (mature now).trans (lock.eq_zero_iff now)
  have cooldown := cooldowns ancient rfl
  obtain ⟨outlived, -, forGood⟩ := lifetimes ancient
  have expired := outlived _ rfl (by decide) (by decide)
  refine ⟨⟨?_, ?_, ?_, ?_⟩, ⟨?_, ?_⟩, ?_, ?_, ?_⟩
  · rw [shows, Option.some_inj, ← Int64.toInt_inj, lock.toInt_eq]
    decide
  · rw [unlocked]
    decide
  · rw [unlocked]
    decide
  · rw [unlocked]
    decide
  · rw [← Int64.toInt_inj, cooldown.toInt_eq]
    decide
  · rw [cooldown.eq_zero_iff]
    decide
  · rw [expired]
    decide
  · rw [expired]
    decide
  · exact forGood ⟨-1⟩ _ (by decide) ((expired _).2 (by decide))

/-! ### Limits that have been checked -/

theorem Limits.check_eq_ok_iff {limits : Limits} {u : Unit} :
    limits.check = .ok u ↔
      (0 ≤ limits.lockAge ∧ 0 ≤ limits.cooldown ∧ 0 ≤ limits.skew) ∧
        limits.skew ≤ limits.lockAge ∧ limits.defaultCeiling ≤ limits.hardCeiling ∧
        limits.tradeCap < limits.defaultCeiling ∧ limits.feeCap < limits.tradeCap ∧
        limits.dust < limits.feeCap ∧ limits.minDecimals ≤ limits.maxDecimals := by
  simp only [check, unit_bind_eq_ok_iff, require_eq_ok_iff]

namespace Ledger

variable {limits : Limits} {retention : Nat} {l : Ledger}

theorem start_eq_ok_iff :
    start limits retention = .ok l ↔ limits.check = .ok () ∧ l = fresh limits retention := by
  rw [start, unit_bind_eq_ok_iff, pure_eq_ok_iff, eq_comm (b := l)]

/-- The standard limits do not contradict themselves. -/
theorem start_standard (retention : Nat) :
    start .standard retention = .ok (fresh .standard retention) :=
  start_eq_ok_iff.2 ⟨by rfl, rfl⟩

/-- No span in the limits of a ledger that was started is negative. -/
theorem spans_of_start (started : start limits retention = .ok l) :
    0 ≤ limits.lockAge.toInt ∧ 0 ≤ limits.cooldown.toInt := by
  obtain ⟨checked, -⟩ := start_eq_ok_iff.1 started
  obtain ⟨⟨lock, cooldown, -⟩, -⟩ := Limits.check_eq_ok_iff.1 checked
  rw [Int64.le_iff_toInt_le, Int64.toInt_zero] at lock cooldown
  exact ⟨lock, cooldown⟩

end Ledger

end DelegatedEscrow
