/-
DelegatedEscrow/Timestamp.lean

The ledger clock counts seconds from 1970 in a signed 64-bit word, and so do
the spans between two readings of it.  Sums and differences are held at the
ends of the range instead of wrapping: a clock that is far behind never makes a
lock look elapsed.

`Timestamp.remaining` is the one timer of the library.  Both the time-lock of a
delegation and the cooldown of a pause are instances of it.
-/

namespace DelegatedEscrow

/-- A span of time in seconds. -/
abbrev Seconds := Int64

namespace Seconds

/-- An integer, held within the range of a word. -/
def clamp (n : Int) : Int := max Int64.minValue.toInt (min n Int64.maxValue.toInt)

/-- The sum of two spans, held within the range. -/
def plus (a b : Seconds) : Seconds := Int64.ofIntClamp (a.toInt + b.toInt)

/-- The difference of two spans, held within the range. -/
def minus (a b : Seconds) : Seconds := Int64.ofIntClamp (a.toInt - b.toInt)

variable {m n : Int} {a b : Seconds}

theorem clamp_of_le_of_le (low : Int64.minValue.toInt ≤ n) (high : n ≤ Int64.maxValue.toInt) :
    clamp n = n := by
  unfold clamp
  omega

theorem clamp_le_clamp (h : m ≤ n) : clamp m ≤ clamp n := by
  unfold clamp
  omega

/-- Holding an integer does not change which words are below it; only the largest
word is below nothing that is held. -/
theorem lt_clamp_iff : a.toInt < clamp n ↔ a.toInt < n ∧ a < Int64.maxValue := by
  have low : Int64.minValue.toInt ≤ a.toInt := a.minValue_le_toInt
  rw [Int64.lt_iff_toInt_lt]
  unfold clamp
  omega

theorem toInt_ofIntClamp : (Int64.ofIntClamp n).toInt = clamp n := by
  have order : Int64.minValue.toInt ≤ Int64.maxValue.toInt := by decide
  unfold Int64.ofIntClamp clamp
  split
  · split
    · rw [Int64.toInt_ofIntLE]
      omega
    · omega
  · omega

theorem toInt_max : (max a b).toInt = max a.toInt b.toInt := by
  rw [show max a b = if a ≤ b then b else a from rfl]
  split
  · next h => rw [Int.max_eq_right (Int64.le_iff_toInt_le.1 h)]
  · next h => rw [Int.max_eq_left (by have := mt Int64.le_iff_toInt_le.2 h; omega)]

theorem toInt_plus : (a.plus b).toInt = clamp (a.toInt + b.toInt) := toInt_ofIntClamp

theorem toInt_minus : (a.minus b).toInt = clamp (a.toInt - b.toInt) := toInt_ofIntClamp

end Seconds

/-- A reading of the ledger clock. -/
structure Timestamp where
  secs : Seconds
deriving DecidableEq, Repr

namespace Timestamp

/-- The seconds since 1970 as an integer. -/
def toInt (t : Timestamp) : Int := t.secs.toInt

/-- The start of the clock. -/
def epoch : Timestamp := ⟨0⟩

instance : LE Timestamp := ⟨fun a b => a.toInt ≤ b.toInt⟩

instance : LT Timestamp := ⟨fun a b => a.toInt < b.toInt⟩

instance (a b : Timestamp) : Decidable (a ≤ b) :=
  inferInstanceAs (Decidable (a.toInt ≤ b.toInt))

instance (a b : Timestamp) : Decidable (a < b) :=
  inferInstanceAs (Decidable (a.toInt < b.toInt))

/-- The reading `d` seconds later. -/
def plus (t : Timestamp) (d : Seconds) : Timestamp := ⟨t.secs.plus d⟩

/-- The seconds elapsed from `start` to `t`, negative when `start` is later. -/
def since (t start : Timestamp) : Seconds := t.secs.minus start.secs

/-- What is left at `now` of a span `d` that began at `start`; zero once it has
elapsed. -/
def remaining (start now : Timestamp) (d : Seconds) : Seconds :=
  max 0 (d.minus (now.since start))

variable {t u : Timestamp} {d : Seconds}

theorem toInt_plus : (t.plus d).toInt = Seconds.clamp (t.toInt + d.toInt) :=
  Seconds.toInt_plus

theorem toInt_since : (t.since u).toInt = Seconds.clamp (t.toInt - u.toInt) :=
  Seconds.toInt_minus

theorem toInt_remaining {start now : Timestamp} :
    (remaining start now d).toInt =
      max 0 (Seconds.clamp (d.toInt - Seconds.clamp (now.toInt - start.toInt))) := by
  rw [remaining, Seconds.toInt_max, Seconds.toInt_minus, toInt_since, Int64.toInt_zero]

end Timestamp

end DelegatedEscrow
