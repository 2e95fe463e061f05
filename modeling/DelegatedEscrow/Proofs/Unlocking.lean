/-
DelegatedEscrow/Proofs/Unlocking.lean

When a delegation unlocks.  The event of a delegation announces the moment from which on the
delegate may spend, which is a sum that is held at the end of the range:

    usable from  =  min (largest word) (now + lock)

The guard looks at no such sum.  It takes two differences, each held at both ends of the
range, and asks whether anything is left of the lock.  The two agree at every reading of the
clock, unless the sum leaves the range; then nothing that a clock can read is late enough,
and the announcement is the last reading there is.  Either way nobody spends before the
moment that was announced, whatever happens to the clock in the meantime.
-/
import DelegatedEscrow.Proofs.Announcements
import DelegatedEscrow.Proofs.Delegation
import DelegatedEscrow.Proofs.Slots

namespace DelegatedEscrow

/-! ### The sum and the two differences -/

section
variable {start now : Timestamp} {age : Seconds} {d : Identity}

/-- A moment that lies ahead is held at the end of the range. -/
theorem Timestamp.toInt_plus_eq (positive : 0 ≤ age.toInt) :
    (start.plus age).toInt = min Int64.maxValue.toInt (start.toInt + age.toInt) := by
  have low : Int64.minValue.toInt ≤ start.toInt := Int64.minValue_le_toInt start.secs
  have order : Int64.minValue.toInt ≤ Int64.maxValue.toInt := by decide
  rw [toInt_plus]
  unfold Seconds.clamp
  omega

namespace Slot

/-- Whoever gets through is not early, even if the announcement had to be held. -/
theorem usable_of_mature (positive : 0 ≤ age.toInt)
    (mature : (delegated d start).Mature now age) : start.plus age ≤ now := by
  have waited := (mature_delegated_iff positive).1 mature
  show (start.plus age).toInt ≤ now.toInt
  rw [Timestamp.toInt_plus_eq positive]
  omega

/-- Where the sum is within the range, the announcement is exact. -/
theorem mature_iff_usable (positive : 0 ≤ age.toInt)
    (within : start.toInt + age.toInt ≤ Int64.maxValue.toInt) :
    (delegated d start).Mature now age ↔ start.plus age ≤ now := by
  refine ⟨usable_of_mature positive, fun usable => ?_⟩
  have late : (start.plus age).toInt ≤ now.toInt := usable
  rw [Timestamp.toInt_plus_eq positive] at late
  rw [mature_delegated_iff positive]
  omega

/-- Where it is beyond the range, so is the end of the lock. -/
theorem not_mature_of_beyond (positive : 0 ≤ age.toInt)
    (beyond : Int64.maxValue.toInt < start.toInt + age.toInt) :
    ¬ (delegated d start).Mature now age := by
  have reading : now.toInt ≤ Int64.maxValue.toInt := now.secs.toInt_le
  rw [mature_delegated_iff positive]
  omega

end Slot

end

namespace Ledger

variable {limits : Limits} {P : Account → Prop} {m : Moment} {signer owner d : Identity}
variable {k : Authority}

/-! ### What a delegation leaves behind -/

/-- A delegation that takes effect fills the slot, and announces when it unlocks. -/
theorem Records.delegated_of_accepted (h : m.before.Records limits P) (single : m.step.Single)
    (accepted : m.accepted? = some ⟨signer, .act owner (.delegate k d)⟩) :
    ∃ b, m.after.escrow? owner = some b ∧ b.slot k = .delegated d m.before.now ∧
      m.after.journal.events.getLast? =
        some ⟨m.before.journal.nextId, m.before.now, owner, b.nonce,
          .delegated k d (m.before.now.plus limits.lockAge)⟩ := by
  cases Moment.outcome single with
  | nothing none _ => cases none.symm.trans accepted
  | effect i t c _ accepted' staged _ after =>
    obtain rfl : i = _ := Option.some.inj (accepted'.symm.trans accepted)
    have target : t.account.owner = owner := h.target staged
    obtain ⟨a, -, acted⟩ := stage_act_eq_ok_iff.1 staged
    obtain ⟨-, -, -, -, -, rfl⟩ := Account.delegate_eq_ok_iff.1 acted
    refine ⟨a.setSlot k (.delegated d m.before.now), ?_, ?_, ?_⟩
    · rw [after, escrow?_written, if_pos target]
      rfl
    · rw [Account.slot_setSlot, if_pos rfl]
    · rw [after, ← target, ← h.limits_eq]
      exact Journal.getLast?_record

/-- As long as a slot is not revoked, whoever spends under its authority is the delegate that
was there at the beginning, and has waited since. -/
theorem Path.spender_of_kept {l l' : Ledger} {between : List Moment} {n : Moment} {a : Account}
    {start : Timestamp} {action : Action} {amount : Amount} (p : Path l (between ++ [n]) l')
    (h : l.Records limits fun _ => True) (found : l.escrow? owner = some a)
    (taken : a.slot k = .delegated d start)
    (kept : ∀ x ∈ between, ¬ x.Performs owner (.revoke k))
    (accepted : n.accepted? = some ⟨signer, .act owner action⟩)
    (draws : action.draw? = some (k, amount)) :
    signer = d ∧ (Slot.delegated d start).Mature n.before.now limits.lockAge := by
  have inv := Account.invariant_true limits
  obtain ⟨before, single, -⟩ := p.split
  have records : n.before.Records limits fun _ => True :=
    (before.invariant (fun single h => h.step inv single) h).1
  obtain ⟨b, t, there, staged⟩ := records.staged_of_accepted single accepted
  obtain ⟨-, spends, mature, -, -⟩ := (Action.stage_draw draws staged).1
  have setLimits : n.before.setting.limits = limits := records.limits_eq
  obtain ⟨c, there', same | reassigned⟩ := before.reassigned inv h found taken
  all_goals obtain rfl : b = c := Option.some.inj (there.symm.trans there')
  · rw [same, taken] at spends mature
    rw [setLimits] at mature
    exact ⟨(Option.some.inj spends).symm, mature⟩
  · -- The slot would have been emptied on the way.
    obtain ⟨earlier, revoked, after, rfl, revokes, -⟩ := reassigned
    exact absurd ⟨owner, revokes⟩ (kept revoked (by simp))

/-- **The announced moment.**  Whenever a delegation takes effect, its event announces a
moment.  If the end of the lock is within the range of the clock, the guard lets the delegate
through from exactly this moment on.  If it is beyond, the event announces the last reading
of the clock, and the slot does not mature at any.  In either case nobody gets through
earlier; and until the slot is revoked, nobody else spends under this authority, and the
delegate does not spend before the moment announced. -/
theorem announced_moment_is_real (limits : Limits) (retention : Nat) (start : Ledger)
    (started : Ledger.start limits retention = .ok start) (steps : List Step)
    (past later : List Moment) (m : Moment) (history : start.trace steps = past ++ m :: later)
    (signer owner d : Identity) (k : Authority)
    (accepted : m.accepted? = some ⟨signer, .act owner (.delegate k d)⟩) :
    ∃ b event usableFrom,
      m.after.escrow? owner = some b ∧
      (m.after.journal.events.getLast? = some event ∧ event.escrow = owner ∧
        event.time = m.before.now ∧ event.payload = .delegated k d usableFrom) ∧
      (m.before.now.toInt + limits.lockAge.toInt ≤ Int64.maxValue.toInt →
        ∀ now, b.requireMature k d now limits.lockAge = .ok () ↔ usableFrom ≤ now) ∧
      (Int64.maxValue.toInt < m.before.now.toInt + limits.lockAge.toInt →
        usableFrom = ⟨Int64.maxValue⟩ ∧ ∀ now, ¬ (b.slot k).Mature now limits.lockAge) ∧
      (∀ now, b.requireMature k d now limits.lockAge = .ok () → usableFrom ≤ now) ∧
      ∀ between n rest, later = between ++ n :: rest →
        (∀ x ∈ between, ¬ x.Performs owner (.revoke k)) →
          ∀ spender action amount, n.accepted? = some ⟨spender, .act owner action⟩ →
            action.draw? = some (k, amount) → spender = d ∧ usableFrom ≤ n.before.now := by
  obtain ⟨lock, -⟩ := spans_of_start started
  obtain ⟨-, rfl⟩ := start_eq_ok_iff.1 started
  have inv := Account.invariant_true limits
  have path := path_trace (Ledger.fresh limits retention) steps
  rw [history] at path
  obtain ⟨before, single, after⟩ := path.split
  have records : m.before.Records limits fun _ => True :=
    (before.invariant (fun single h => h.step inv single) (Records.fresh limits _ retention)).1
  obtain ⟨b, found, taken, announced⟩ := records.delegated_of_accepted single accepted
  have passes : ∀ now, b.requireMature k d now limits.lockAge = .ok () ↔
      (Slot.delegated d m.before.now).Mature now limits.lockAge := by
    intro now
    rw [Account.requireMature_eq_ok_iff, taken]
    exact and_iff_right rfl
  refine ⟨b, _, m.before.now.plus limits.lockAge, found, ⟨announced, rfl, rfl, rfl⟩, ?_, ?_, ?_, ?_⟩
  · intro within now
    rw [passes, Slot.mature_iff_usable lock within]
  · intro beyond
    constructor
    · have held : (m.before.now.plus limits.lockAge).secs.toInt = Int64.maxValue.toInt := by
        show (m.before.now.plus limits.lockAge).toInt = _
        rw [Timestamp.toInt_plus_eq lock]
        omega
      exact congrArg Timestamp.mk (Int64.toInt_inj.1 held)
    · intro now
      rw [taken]
      exact Slot.not_mature_of_beyond lock beyond
  · intro now through
    exact Slot.usable_of_mature lock ((passes now).1 through)
  · rintro between n rest rfl kept spender action amount spent draws
    rw [List.append_cons] at after
    obtain ⟨l', upto, -⟩ := after.of_append
    obtain ⟨same, mature⟩ := upto.spender_of_kept (records.step inv single) found taken kept
      spent draws
    exact ⟨same, Slot.usable_of_mature lock mature⟩

/-- A run that ends 300 seconds before the last reading of the clock. -/
def lastMinutes : List Step :=
  [.submit ⟨.ofSeed 1, .create .usdc 0 .unlimited⟩, .setTime ⟨9223372036854775507⟩]

/-- The delegation that the owner then makes. -/
def lastDelegation : Signed :=
  ⟨.ofSeed 1, .act (.ofSeed 1) (.delegate .trading (.ofSeed 200))⟩

/-- It unlocks at the very last reading, and not a second before. -/
theorem unlocked_at_the_end_of_time :
    let start := Ledger.fresh .standard 8
    let m : Moment := ⟨start.run lastMinutes, .submit lastDelegation⟩
    m.accepted? = some lastDelegation ∧
      ∃ b, m.after.escrow? (.ofSeed 1) = some b ∧
        b.requireMature .trading (.ofSeed 200) ⟨Int64.maxValue⟩ 300 = .ok () ∧
        b.requireMature .trading (.ofSeed 200) ⟨Int64.maxValue - 1⟩ 300 ≠ .ok () := by
  intro start m
  have accepted : m.accepted? = some lastDelegation := by decide +kernel
  have told : m.after.journal.events.getLast?.map Event.payload =
      some (.delegated .trading (.ofSeed 200) ⟨Int64.maxValue⟩) := by decide +kernel
  have history : start.trace (lastMinutes ++ [.submit lastDelegation]) =
      start.trace lastMinutes ++ m :: [] := by
    rfl
  obtain ⟨b, event, usableFrom, found, ⟨announced, -, -, payload⟩, precise, -⟩ :=
    announced_moment_is_real .standard 8 start (start_standard 8)
      (lastMinutes ++ [.submit lastDelegation]) (start.trace lastMinutes) [] m history
      (.ofSeed 1) (.ofSeed 1) (.ofSeed 200) .trading accepted
  rw [announced, Option.map_some, payload] at told
  obtain ⟨-, -, rfl⟩ := Payload.delegated.inj (Option.some.inj told)
  have through := precise (by decide +kernel)
  exact ⟨accepted, b, found, (through _).2 (by decide), fun early =>
    absurd ((through _).1 early) (by decide)⟩

end Ledger

end DelegatedEscrow
