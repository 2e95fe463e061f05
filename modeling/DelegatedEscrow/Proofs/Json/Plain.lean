/-
DelegatedEscrow/Proofs/Json/Plain.lean

What a reader can hold that keeps a value as a tree before it looks at it.

Such a reader refuses numbers that double precision cannot hold, strings and keys that are
no text, and trees that are nested too deep.  An integer of 64 bits is never refused: its
digits fit the word that they are taken into, nothing is dropped, and the nearest double
is at most twice as large (`finite_ofInt`).
-/
import DelegatedEscrow.Json.Form
import DelegatedEscrow.Proofs.Json.Lexeme

namespace DelegatedEscrow.Json

/-! ### Integers in double precision -/

namespace Literal

theorem le_ofDigitChars (ds : List Char) (word : Nat) : word ≤ Nat.ofDigitChars 10 ds word := by
  induction ds generalizing word with
  | nil => exact Nat.le_refl word
  | cons d ds ih =>
    have rest := ih (10 * word + (d.toNat - '0'.toNat))
    rw [Nat.ofDigitChars_cons]
    omega

/-- Digits of a number that fits the word are all taken in. -/
theorem intake_digits {ds : List Char} {word : Nat} (digits : ∀ c ∈ ds, c.isDigit)
    (fits : Nat.ofDigitChars 10 ds word < UInt64.size) :
    intake word (ds.map fun d => Fin.ofNat 10 (d.toNat - '0'.toNat)) =
      (Nat.ofDigitChars 10 ds word, 0) := by
  induction ds generalizing word with
  | nil => rw [List.map_nil, intake, Nat.ofDigitChars_nil]
  | cons d ds ih =>
    have digit : d.toNat - '0'.toNat < 10 := by
      have range := Char.isDigit_iff_toNat.1 (digits d List.mem_cons_self)
      have nine : '9'.toNat = '0'.toNat + 9 := rfl
      omega
    have value : (Fin.ofNat 10 (d.toNat - '0'.toNat)).val = d.toNat - '0'.toNat :=
      Nat.mod_eq_of_lt digit
    rw [Nat.ofDigitChars_cons] at fits ⊢
    -- The digits to come only add to the word, so there is room for this one.
    have room := le_ofDigitChars ds (10 * word + (d.toNat - '0'.toNat))
    rw [List.map_cons, intake, value, if_pos (by omega)]
    exact ih (fun c hc => digits c (List.mem_cons_of_mem _ hc)) fits

theorem nearestDouble_le {n : Nat} (pos : n ≠ 0) : nearestDouble n ≤ 2 * n := by
  have ulp : 1 <<< (n.log2 - 52) ≤ n := by
    rw [Nat.one_shiftLeft]
    exact Nat.le_trans (Nat.pow_le_pow_right (by decide) (Nat.sub_le _ _))
      (Nat.log2_self_le pos)
  have low := Nat.div_mul_le_self n (1 <<< (n.log2 - 52))
  simp only [nearestDouble]
  split <;> omega

theorem scaled_ofInt {n : Int} (fits : n.natAbs < UInt64.size) :
    (ofInt n).scaled = (n.natAbs, 0) := by
  have whole : intake 0 _ = _ :=
    intake_digits (isDigit_toDigits n.natAbs) (by rwa [Nat.ofDigitChars_ten_toDigits])
  rw [Nat.ofDigitChars_ten_toDigits] at whole
  simp only [scaled, ofInt, whole, intake]
  rfl

/-- An integer of 64 bits has a finite double. -/
theorem finite_ofInt {n : Int} (fits : n.natAbs < UInt64.size) : (ofInt n).Finite := by
  rw [Finite, scaled_ofInt fits]
  by_cases zero : n.natAbs = 0
  · exact .inl zero
  · have one : nearestDouble (Nat.pow 10 (0 : Int).toNat) = 1 := by decide
    have bound : 2 * UInt64.size ≤ overflowBound := by decide
    have double := nearestDouble_le zero
    refine .inr ⟨by decide, ?_⟩
    rw [one]
    omega

end Literal

/-! ### Plain trees of limited depth -/

/-- The value is plain, and at most `n` arrays and objects are nested in it. -/
def Fits (n : Nat) (v : Json) : Prop := v.plain ∧ v.depth ≤ n

variable {n : Nat} {items : List Json} {members : List (String × Json)}

theorem fits_null : null.Fits n := ⟨rfl, Nat.zero_le n⟩

theorem fits_text (s : String) : (text s).Fits n := ⟨rfl, Nat.zero_le n⟩

theorem fits_int {k : Int} (fits : k.natAbs < UInt64.size) : (int k).Fits n :=
  ⟨decide_eq_true (Literal.finite_ofInt fits), Nat.zero_le n⟩

theorem fits_array_iff : (array items).Fits (n + 1) ↔ ∀ v ∈ items, v.Fits n := by
  have each : itemsPlain items ∧ itemsDepth items ≤ n ↔ ∀ v ∈ items, v.Fits n := by
    induction items with
    | nil => exact ⟨fun _ => nofun, fun _ => ⟨rfl, Nat.zero_le n⟩⟩
    | cons v rest ih =>
      rw [List.forall_mem_cons, ← ih, itemsPlain, itemsDepth, Nat.max_le, Bool.and_eq_true]
      exact and_and_and_comm
  rw [← each, Fits, Json.plain, Json.depth, Nat.succ_le_succ_iff]

theorem fits_object_iff {members : List (Key × Json)} :
    (object members).Fits (n + 1) ↔ ∀ m ∈ members, m.1.isSome ∧ m.2.Fits n := by
  have each : membersPlain members ∧ membersDepth members ≤ n ↔
      ∀ m ∈ members, m.1.isSome ∧ m.2.Fits n := by
    induction members with
    | nil => exact ⟨fun _ => nofun, fun _ => ⟨rfl, Nat.zero_le n⟩⟩
    | cons m rest ih =>
      rw [List.forall_mem_cons, ← ih, membersPlain, membersDepth, Nat.max_le, Bool.and_eq_true,
        Bool.and_eq_true]
      exact and_and_and_comm.trans (and_congr_left fun _ => and_assoc)
  rw [← each, Fits, Json.plain, Json.depth, Nat.succ_le_succ_iff]

/-- The keys of a record are always text. -/
theorem fits_record (each : ∀ m ∈ members, m.2.Fits n) : (record members).Fits (n + 1) := by
  apply fits_object_iff.2
  intro m hm
  obtain ⟨m, member, rfl⟩ := List.mem_map.1 hm
  exact ⟨rfl, each m member⟩

end DelegatedEscrow.Json
