/-
DelegatedEscrow/Proofs/Display.lean

Amounts as people read them, and back.

A decimal stands for a rational number (`Decimal.value`), and there are as many ways to write
it as there are zeros to put at the end of its fraction.  Exactly one of them is reduced
(`reduced_unique`), and `strip` finds it.  So what the operations do can be said in rational
numbers alone:

    times? k      the product with k, if it can be written at all
    toDisplay? d  the quotient by 10 ^ d
    ofDisplay? d  the amount n with  value * 10 ^ d = n,  if there is one

Nothing is rounded on the way, so a value that is finer than one base unit is never taken for
an amount, and no two values are taken for the same one.  The one limit is that the power of
ten has to fit a word, which it does up to 19 decimals (`pow_ten_lt_size_iff`).  Amounts are
shown with up to 28.
-/
import Mathlib.Algebra.Order.Field.Rat
import Mathlib.Tactic.FieldSimp
import Mathlib.Tactic.Linarith
import Mathlib.Tactic.Positivity
import DelegatedEscrow.Amount.Display

namespace DelegatedEscrow

namespace Decimal

/-- The number that a decimal stands for. -/
def value (v : Decimal) : ℚ := v.coefficient / 10 ^ v.scale

/-- The fraction of `c / 10 ^ s` has no zero at its end. -/
def ReducedParts (c : ℤ) (s : ℕ) : Prop := s = 0 ∨ ¬ 10 ∣ c

/-- The decimal has no zero at the end of its fraction. -/
def Reduced (v : Decimal) : Prop := ReducedParts v.coefficient v.scale

variable {c c' n : ℤ} {s s' k : ℕ} {u v w : Decimal}

/-! ### One way of writing without zeros at the end -/

/-- Of two ways to write a number, the longer one has zeros at its end. -/
theorem coefficient_of_longer (k : ℕ) (same : (c : ℚ) / 10 ^ s = c' / 10 ^ (s + k)) :
    c' = c * 10 ^ k := by
  rw [div_eq_div_iff (by positivity) (by positivity), pow_add, ← mul_assoc,
    mul_right_comm] at same
  have cancelled := mul_right_cancel₀ (by positivity) same
  exact_mod_cast cancelled.symm

/-- So a way of writing without zeros at the end is not longer than another one. -/
theorem not_longer {k : ℕ} (reduced : ReducedParts c' (s + k))
    (same : (c : ℚ) / 10 ^ s = c' / 10 ^ (s + k)) : k = 0 := by
  cases k with
  | zero => rfl
  | succ k =>
    rcases reduced with short | odd
    · omega
    · have zeros := coefficient_of_longer (k + 1) same
      rw [pow_succ, ← mul_assoc] at zeros
      exact absurd (Dvd.intro_left _ zeros.symm) odd

theorem reduced_unique (one : ReducedParts c s) (other : ReducedParts c' s')
    (same : (c : ℚ) / 10 ^ s = c' / 10 ^ s') : c = c' ∧ s = s' := by
  have lengths : s = s' := by
    rcases Nat.le_total s s' with le | le
    · obtain ⟨k, rfl⟩ := Nat.exists_eq_add_of_le le
      have none := not_longer other same
      omega
    · obtain ⟨k, rfl⟩ := Nat.exists_eq_add_of_le le
      have none := not_longer one same.symm
      omega
  subst lengths
  have equal := coefficient_of_longer 0 same
  exact ⟨by omega, rfl⟩

theorem value_strip (c : ℤ) (s : ℕ) :
    ((strip c s).1 : ℚ) / 10 ^ (strip c s).2 = c / 10 ^ s := by
  induction s generalizing c with
  | zero => rfl
  | succ s ih =>
    rw [strip]
    split
    · next zero =>
      obtain ⟨q, rfl⟩ := Int.dvd_of_emod_eq_zero zero
      rw [ih, Int.mul_ediv_cancel_left q (by decide), pow_succ]
      push_cast
      field_simp
    · rfl

theorem reduced_strip (c : ℤ) (s : ℕ) : ReducedParts (strip c s).1 (strip c s).2 := by
  induction s generalizing c with
  | zero => exact .inl rfl
  | succ s ih =>
    rw [strip]
    split
    · exact ih (c / 10)
    · next other => exact .inr fun zero => other (Int.emod_eq_zero_of_dvd zero)

/-- Stripping finds the way of writing that has no zeros at the end. -/
theorem strip_eq_iff :
    strip c s = (c', s') ↔ ReducedParts c' s' ∧ (c' : ℚ) / 10 ^ s' = c / 10 ^ s := by
  constructor
  · intro e
    have reduced := reduced_strip c s
    have same := value_strip c s
    rw [e] at reduced same
    exact ⟨reduced, same⟩
  · rintro ⟨reduced, same⟩
    obtain ⟨coefficient, scale⟩ :=
      reduced_unique (reduced_strip c s) reduced ((value_strip c s).trans same.symm)
    exact Prod.ext coefficient scale

/-! ### The operations in rational numbers -/

theorem ofParts?_eq_some_iff : ofParts? c s = some v ↔ v.coefficient = c ∧ v.scale = s := by
  obtain ⟨c', s', small, short⟩ := v
  unfold ofParts?
  constructor
  · intro e
    split at e
    · cases e
      exact ⟨rfl, rfl⟩
    · cases e
  · rintro ⟨rfl, rfl⟩
    exact dif_pos ⟨small, short⟩

theorem normalize_eq_iff : v.normalize = w ↔ w.Reduced ∧ w.value = v.value := by
  have parts : v.normalize = w ↔ strip v.coefficient v.scale = (w.coefficient, w.scale) := by
    obtain ⟨c, s, -, -⟩ := w
    simp only [normalize, mk.injEq, Prod.ext_iff]
  rw [parts, strip_eq_iff]
  rfl

/-- The product is exact, and there is one if it can be written. -/
theorem times?_eq_some_iff : v.times? k = some w ↔ w.Reduced ∧ w.value = v.value * k := by
  have parts : v.times? k = some w ↔
      strip (v.coefficient * k) v.scale = (w.coefficient, w.scale) := by
    rw [Prod.ext_iff, eq_comm (b := w.coefficient), eq_comm (b := w.scale)]
    exact ofParts?_eq_some_iff
  have product : ((v.coefficient * k : ℤ) : ℚ) / 10 ^ v.scale = v.value * k := by
    rw [value]
    push_cast
    exact mul_div_right_comm _ _ _
  rw [parts, strip_eq_iff, product]
  rfl

theorem integer?_eq_some_iff : v.integer? = some n ↔ v.value = n := by
  have unit : ((Nat.pow 10 v.scale : ℕ) : ℤ) ≠ 0 := by
    rw [Nat.pow_eq]
    positivity
  have whole : v.value = n ↔ v.coefficient = n * (Nat.pow 10 v.scale : ℕ) := by
    rw [value, div_eq_iff (by positivity), Nat.pow_eq]
    exact_mod_cast Iff.rfl
  rw [whole]
  unfold integer?
  dsimp only
  split
  · next divides =>
    rw [Option.some.injEq, Int.ediv_eq_iff_eq_mul_left unit (Int.dvd_of_emod_eq_zero divides)]
  · next rest =>
    simp only [reduceCtorEq, false_iff]
    rintro e
    exact rest (by rw [e, Int.mul_emod_left])

theorem value_nonneg_iff : 0 ≤ v.value ↔ 0 ≤ v.coefficient := by
  rw [value, le_div_iff₀ (by positivity), zero_mul]
  exact Int.cast_nonneg_iff

/-- The product is the whole number `n`, if this can be written. -/
theorem whole_product_iff :
    (∃ w, v.times? k = some w ∧ w.integer? = some n) ↔
      n.natAbs < bound ∧ v.value * k = n := by
  constructor
  · rintro ⟨w, scaled, whole⟩
    obtain ⟨reduced, product⟩ := times?_eq_some_iff.1 scaled
    rw [integer?_eq_some_iff] at whole
    -- A whole number has only one reduced form, which is `n` itself.
    have alone : (w.coefficient : ℚ) / 10 ^ w.scale = n / 10 ^ 0 := by
      rw [pow_zero, div_one]
      exact whole
    obtain ⟨coefficient, -⟩ := reduced_unique reduced (.inl rfl) alone
    exact ⟨coefficient ▸ w.natAbs_lt, product.symm.trans whole⟩
  · rintro ⟨small, product⟩
    let w : Decimal := ⟨n, 0, small, Nat.zero_le _⟩
    have value : w.value = n := by
      simp [w, Decimal.value]
    exact ⟨w, times?_eq_some_iff.2 ⟨.inl rfl, value.trans product.symm⟩,
      integer?_eq_some_iff.2 value⟩

end Decimal

namespace Amount

variable {a one : Amount} {d : UInt8} {v w : Decimal}

/-- There is always room for an amount in a decimal. -/
theorem natAbs_toNat_lt (a : Amount) : (a.toNat : ℤ).natAbs < Decimal.bound :=
  Nat.lt_of_lt_of_le a.toNat_lt (by decide)

/-- **Showing.**  An amount is shown as the one way to write it in whole tokens. -/
theorem toDisplay?_eq_some_iff :
    a.toDisplay? d = some v ↔ d.toNat ≤ 28 ∧ v.Reduced ∧ v.value = a.toNat / 10 ^ d.toNat := by
  rw [toDisplay?, Option.map_eq_some_iff]
  constructor
  · rintro ⟨u, made, shown⟩
    obtain ⟨coefficient, scale⟩ := Decimal.ofParts?_eq_some_iff.1 made
    obtain ⟨reduced, same⟩ := Decimal.normalize_eq_iff.1 shown
    have value : u.value = a.toNat / 10 ^ d.toNat := by
      rw [Decimal.value, coefficient, scale, Int.cast_natCast]
    exact ⟨scale ▸ u.scale_le, reduced, same.trans value⟩
  · rintro ⟨few, reduced, same⟩
    have small := a.natAbs_toNat_lt
    refine ⟨⟨a.toNat, d.toNat, small, few⟩, dif_pos ⟨small, few⟩, ?_⟩
    exact Decimal.normalize_eq_iff.2 ⟨reduced, same⟩

/-- The powers of ten that fit a word are those up to the nineteenth. -/
theorem pow_ten_lt_size_iff {n : ℕ} : 10 ^ n < UInt64.size ↔ n ≤ 19 := by
  constructor
  · intro fits
    by_contra large
    have twentieth : 10 ^ 20 ≤ 10 ^ n := Nat.pow_le_pow_right (by decide) (by omega)
    have tooLarge : UInt64.size < 10 ^ 20 := by decide
    omega
  · intro few
    calc 10 ^ n ≤ 10 ^ 19 := Nat.pow_le_pow_right (by decide) few
      _ < UInt64.size := by decide

theorem oneToken?_eq_some_iff : oneToken? d = some one ↔ one.toNat = 10 ^ d.toNat :=
  ofNat?_eq_some_iff

/-- Reading back goes through if each of its steps does. -/
theorem ofDisplay?_steps :
    ofDisplay? v d = some a ↔
      0 ≤ v.coefficient ∧ ∃ one, oneToken? d = some one ∧
        ∃ n, (∃ w, v.times? one.toNat = some w ∧ w.integer? = some n) ∧
          ofNat? n.toNat = some a := by
  unfold ofDisplay?
  split
  · next negative => simp [negative]
  · next sign =>
    simp only [Option.bind_eq_bind, Option.bind_eq_some_iff, Int.not_lt.1 sign, true_and]
    constructor
    · rintro ⟨one, token, w, scaled, n, whole, read⟩
      exact ⟨one, token, n, ⟨w, scaled, whole⟩, read⟩
    · rintro ⟨one, token, n, ⟨w, scaled, whole⟩, read⟩
      exact ⟨one, token, w, scaled, n, whole, read⟩

/-- **Reading back.**  A value is read as the amount that it is, counted in base units, if a
word holds the base units of one token. -/
theorem ofDisplay?_eq_some_iff :
    ofDisplay? v d = some a ↔
      10 ^ d.toNat < UInt64.size ∧ v.value * 10 ^ d.toNat = a.toNat := by
  have positive : (0 : ℚ) < 10 ^ d.toNat := by positivity
  simp only [ofDisplay?_steps, oneToken?_eq_some_iff, Decimal.whole_product_iff,
    ofNat?_eq_some_iff, ← Decimal.value_nonneg_iff]
  constructor
  · rintro ⟨sign, one, token, n, ⟨-, product⟩, read⟩
    rw [token, Nat.cast_pow, Nat.cast_ofNat] at product
    have whole : 0 ≤ n := by
      rw [← Int.cast_nonneg_iff (R := ℚ), ← product]
      positivity
    refine ⟨token ▸ one.toNat_lt, product.trans ?_⟩
    rw [read]
    exact_mod_cast (Int.toNat_of_nonneg whole).symm
  · rintro ⟨fits, counted⟩
    have sign : 0 ≤ v.value := by
      rw [← mul_nonneg_iff_of_pos_right positive, counted]
      positivity
    obtain ⟨one, token⟩ := exists_toNat fits
    refine ⟨sign, one, token, a.toNat, ⟨a.natAbs_toNat_lt, ?_⟩, rfl⟩
    rw [token, Nat.cast_pow, Nat.cast_ofNat, counted, Int.cast_natCast]

/-- A value is refused for one of three reasons: its sign, its fineness or its size. -/
theorem ofDisplay?_eq_none_iff (small : d.toNat ≤ 19) :
    ofDisplay? v d = none ↔
      v.value < 0 ∨ (¬ ∃ z : ℤ, v.value * 10 ^ d.toNat = z) ∨
        (UInt64.size : ℚ) ≤ v.value * 10 ^ d.toNat := by
  have positive : (0 : ℚ) < 10 ^ d.toNat := by positivity
  rw [Option.eq_none_iff_forall_ne_some]
  constructor
  · intro refused
    -- A value with none of these faults counts base units, and would have been read.
    by_contra others
    obtain ⟨sign, ⟨z, whole⟩, fits⟩ : 0 ≤ v.value ∧ (∃ z : ℤ, v.value * 10 ^ d.toNat = z) ∧
        v.value * 10 ^ d.toNat < (UInt64.size : ℚ) := by
      simpa only [not_or, not_lt, not_not, not_le] using others
    rw [← mul_nonneg_iff_of_pos_right positive, whole, Int.cast_nonneg_iff] at sign
    obtain ⟨n, rfl⟩ := Int.eq_ofNat_of_zero_le sign
    rw [whole] at fits
    obtain ⟨a, rfl⟩ := exists_toNat (n := n) (by exact_mod_cast fits)
    exact refused a
      (ofDisplay?_eq_some_iff.2 ⟨pow_ten_lt_size_iff.2 small, by exact_mod_cast whole⟩)
  · intro unfit n read
    obtain ⟨-, counted⟩ := ofDisplay?_eq_some_iff.1 read
    rcases unfit with negative | broken | large
    · have below := mul_neg_of_neg_of_pos negative positive
      rw [counted] at below
      exact absurd below (not_lt.2 (by positivity))
    · exact broken ⟨n.toNat, counted.trans (Int.cast_natCast _).symm⟩
    · rw [counted] at large
      exact absurd n.toNat_lt (not_lt.2 (by exact_mod_cast large))

/-! ### There and back -/

/-- **Shown amounts.**  Every amount of a token with up to 28 decimals can be shown, and what
is shown is read back as the amount, unless the token has more than 19: a word holds the base
units of one token for so many decimals and for no more. -/
theorem shown_is_read_back (a : Amount) (d : UInt8) :
    (d.toNat ≤ 28 → ∃ v, a.toDisplay? d = some v) ∧
      (10 ^ d.toNat < UInt64.size ↔ d.toNat ≤ 19) ∧
      ∀ v, a.toDisplay? d = some v →
        ofDisplay? v d = if d.toNat ≤ 19 then some a else none := by
  refine ⟨fun few => ?_, pow_ten_lt_size_iff, fun v shown => ?_⟩
  · exact ⟨_, congrArg (Option.map Decimal.normalize) (dif_pos ⟨a.natAbs_toNat_lt, few⟩)⟩
  · obtain ⟨-, -, value⟩ := toDisplay?_eq_some_iff.1 shown
    split
    · next small =>
      rw [ofDisplay?_eq_some_iff, value, div_mul_cancel₀ _ (by positivity)]
      exact ⟨pow_ten_lt_size_iff.2 small, rfl⟩
    · next large =>
      rw [Option.eq_none_iff_forall_ne_some]
      intro b read
      exact large (pow_ten_lt_size_iff.1 (ofDisplay?_eq_some_iff.1 read).1)

/-- The largest amount of a token with 19 decimals is read back from what is shown. -/
theorem largest_amount_read_back :
    let a : Amount := ⟨18446744073709551615⟩
    ∃ v, a.toDisplay? 19 = some v ∧ v.value = 18446744073709551615 / 10 ^ 19 ∧
      ofDisplay? v 19 = some a := by
  intro a
  obtain ⟨shown, -, back⟩ := shown_is_read_back a 19
  obtain ⟨v, hv⟩ := shown (by decide)
  obtain ⟨-, -, value⟩ := toDisplay?_eq_some_iff.1 hv
  exact ⟨v, hv, value, back v hv⟩

/-- With 20 decimals the power of ten does not fit a word, and one base unit is shown but
not read back. -/
theorem smallest_of_twenty_not_read_back :
    ¬ ∀ (a : Amount) (d : UInt8) (v : Decimal), a.toDisplay? d = some v →
      ofDisplay? v d = some a := by
  intro back
  have shown : Amount.toDisplay? ⟨1⟩ 20 = some ⟨1, 20, by decide, by decide⟩ := by decide
  have refused : ofDisplay? ⟨1, 20, by decide, by decide⟩ 20 = none := by decide
  cases refused.symm.trans (back _ _ _ shown)

/-- **Values that are read.**  Under 19 decimals at most, a value is read as `n` if counted in
base units it is exactly `n`.  It is refused only if it is negative, finer than one base
unit, or more than a word holds.  What has been read is shown as the same value, without
zeros at the end, so that different values are never read as one amount. -/
theorem read_exactly (d : UInt8) (small : d.toNat ≤ 19) (v : Decimal) :
    (∀ n, ofDisplay? v d = some n ↔ 0 ≤ v.value ∧ v.value * 10 ^ d.toNat = n.toNat) ∧
      (ofDisplay? v d = none ↔
        v.value < 0 ∨ (¬ ∃ z : ℤ, v.value * 10 ^ d.toNat = z) ∨
          (UInt64.size : ℚ) ≤ v.value * 10 ^ d.toNat) ∧
      ∀ n, ofDisplay? v d = some n →
        (n.toDisplay? d = some v.normalize ∧ v.normalize.Reduced ∧
          v.normalize.value = v.value) ∧
        ∀ w, ofDisplay? w d = some n → w.value = v.value := by
  have positive : (0 : ℚ) < 10 ^ d.toNat := by positivity
  refine ⟨fun n => ?_, ?_, fun n read => ⟨?_, fun w read' => ?_⟩⟩
  · rw [ofDisplay?_eq_some_iff]
    constructor
    · rintro ⟨-, counted⟩
      refine ⟨?_, counted⟩
      rw [← mul_nonneg_iff_of_pos_right positive, counted]
      positivity
    · rintro ⟨-, counted⟩
      exact ⟨pow_ten_lt_size_iff.2 small, counted⟩
  · exact ofDisplay?_eq_none_iff small
  · obtain ⟨-, counted⟩ := ofDisplay?_eq_some_iff.1 read
    obtain ⟨reduced, same⟩ := Decimal.normalize_eq_iff.1 (rfl : v.normalize = v.normalize)
    refine ⟨toDisplay?_eq_some_iff.2 ⟨by omega, reduced, ?_⟩, reduced, same⟩
    rw [same, ← counted, mul_div_cancel_right₀ _ positive.ne']
  · obtain ⟨-, counted⟩ := ofDisplay?_eq_some_iff.1 read
    obtain ⟨-, counted'⟩ := ofDisplay?_eq_some_iff.1 read'
    exact mul_right_cancel₀ positive.ne' (counted'.trans counted.symm)

/-- One and a half of a token with six decimals, written with a zero at the end. -/
theorem one_and_a_half_read :
    let v : Decimal := ⟨150, 2, by decide, by decide⟩
    ofDisplay? v 6 = some ⟨1500000⟩ ∧
      Amount.toDisplay? ⟨1500000⟩ 6 = some ⟨15, 1, by decide, by decide⟩ := by
  intro v
  have few : (6 : UInt8).toNat ≤ 19 := by decide
  obtain ⟨read, -, shown⟩ := read_exactly 6 few v
  have counted : v.value = 150 / 10 ^ 2 := rfl
  have six : (6 : UInt8).toNat = 6 := rfl
  have units : (Amount.toNat ⟨1500000⟩ : ℚ) = 1500000 := by
    rfl
  have amount := (read ⟨1500000⟩).2 (by rw [counted, six, units]; norm_num)
  exact ⟨amount, (shown _ amount).1.1⟩

end Amount

end DelegatedEscrow
