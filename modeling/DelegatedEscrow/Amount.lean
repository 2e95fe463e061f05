/-
DelegatedEscrow/Amount.lean

An amount is a whole number of a token's base units, held in a 64-bit word.
Nothing here wraps: a sum that leaves the word and a difference that would be
negative are `none`, and the caller says which fault that is.

Every statement about amounts goes through `toNat`, where sums and differences
are the ordinary ones: `add?_eq_some_iff` and `sub?_eq_some_iff` are what the
rest of the library uses in place of the definitions.
-/

namespace DelegatedEscrow

/-- A whole number of base units, below `2 ^ 64`. -/
structure Amount where
  units : UInt64
deriving DecidableEq, Repr

namespace Amount

/-- The number of base units. -/
def toNat (a : Amount) : Nat := a.units.toNat

instance : Zero Amount := ⟨⟨0⟩⟩

instance : LE Amount := ⟨fun a b => a.toNat ≤ b.toNat⟩

instance : LT Amount := ⟨fun a b => a.toNat < b.toNat⟩

instance (a b : Amount) : Decidable (a ≤ b) :=
  inferInstanceAs (Decidable (a.toNat ≤ b.toNat))

instance (a b : Amount) : Decidable (a < b) :=
  inferInstanceAs (Decidable (a.toNat < b.toNat))

/-- The amount of `n` base units, if a word holds them. -/
def ofNat? (n : Nat) : Option Amount :=
  if h : n < UInt64.size then some ⟨UInt64.ofNatLT n h⟩ else none

/-- The sum, unless it leaves the word. -/
def add? (a b : Amount) : Option Amount := ofNat? (a.toNat + b.toNat)

/-- The difference, unless it would be negative. -/
def sub? (a b : Amount) : Option Amount :=
  if b ≤ a then ofNat? (a.toNat - b.toNat) else none

instance : ToString Amount := ⟨fun a => toString a.toNat⟩

/-! ### Through `toNat` -/

variable {a b c : Amount} {n : Nat}

theorem toNat_lt (a : Amount) : a.toNat < UInt64.size := a.units.toNat_lt

@[simp] theorem toNat_zero : (0 : Amount).toNat = 0 := rfl

theorem toNat_inj : a.toNat = b.toNat ↔ a = b := by
  cases a; cases b; simp [toNat, UInt64.toNat_inj]

theorem le_iff_toNat_le : a ≤ b ↔ a.toNat ≤ b.toNat := Iff.rfl

theorem lt_iff_toNat_lt : a < b ↔ a.toNat < b.toNat := Iff.rfl

theorem eq_zero_iff : a = 0 ↔ a.toNat = 0 := by
  rw [← toNat_inj, toNat_zero]

theorem ofNat?_eq_some_iff : ofNat? n = some a ↔ a.toNat = n := by
  unfold ofNat?
  split
  · next h =>
    rw [Option.some.injEq, ← toNat_inj, eq_comm]
    simp [toNat]
  · next h =>
    simp only [reduceCtorEq, false_iff]
    rintro rfl
    exact h a.toNat_lt

theorem ofNat?_eq_none_iff : ofNat? n = none ↔ UInt64.size ≤ n := by
  unfold ofNat?
  split <;> simp <;> omega

theorem exists_toNat (h : n < UInt64.size) : ∃ a : Amount, a.toNat = n := by
  rcases e : ofNat? n with - | a
  · rw [ofNat?_eq_none_iff] at e
    omega
  · exact ⟨a, ofNat?_eq_some_iff.1 e⟩

theorem add?_eq_some_iff : a.add? b = some c ↔ c.toNat = a.toNat + b.toNat :=
  ofNat?_eq_some_iff

theorem add?_eq_none_iff : a.add? b = none ↔ UInt64.size ≤ a.toNat + b.toNat :=
  ofNat?_eq_none_iff

theorem sub?_eq_some_iff : a.sub? b = some c ↔ c.toNat + b.toNat = a.toNat := by
  unfold sub?
  split
  · next h =>
    rw [ofNat?_eq_some_iff]
    have := le_iff_toNat_le.1 h
    omega
  · next h =>
    have := mt le_iff_toNat_le.2 h
    simp only [reduceCtorEq, false_iff]
    omega

theorem sub?_eq_none_iff : a.sub? b = none ↔ a.toNat < b.toNat := by
  unfold sub?
  split
  · next h =>
    have := le_iff_toNat_le.1 h
    have := a.toNat_lt
    rw [ofNat?_eq_none_iff]
    omega
  · next h =>
    have := mt le_iff_toNat_le.2 h
    simp only [true_iff]
    omega

end Amount

end DelegatedEscrow
