/-
DelegatedEscrow/Bisection.lean

Bisection of a range of positions: it looks for the place where a predicate
stops holding, and halves the range at every step.

`bisect_boundary` says what is found when the predicate holds first and then no
longer.  For any other predicate the result is where the halving leads.
-/

namespace DelegatedEscrow

/-- Where in `base, …, base + size` the positions with `p` end.  If every
position with `p` comes before every position without, this is the first one
without. -/
def bisect (p : Nat → Bool) (base size : Nat) : Nat :=
  if size = 0 then base
  else if size = 1 then (if p base then base + 1 else base)
  else
    let middle := base + size / 2
    bisect p (if p middle then middle else base) (size - size / 2)
termination_by size
decreasing_by omega

/-- What the bisection finds, if every position with `p` comes before every
position without. -/
theorem bisect_boundary {p : Nat → Bool} (closed : ∀ i j, i ≤ j → p j → p i)
    (base size : Nat) :
    base ≤ bisect p base size ∧ bisect p base size ≤ base + size ∧
      (∀ i, base ≤ i → i < bisect p base size → p i) ∧
      (bisect p base size < base + size → p (bisect p base size) = false) := by
  fun_induction bisect p base size with
  | case1 base => exact ⟨by omega, by omega, fun i _ _ => by omega, fun _ => by omega⟩
  | case2 base hp _ =>
    refine ⟨by omega, by omega, fun i low high => ?_, fun _ => by omega⟩
    rwa [show i = base by omega]
  | case3 base hp _ =>
    exact ⟨by omega, by omega, fun i _ _ => by omega, fun _ => by simpa using hp⟩
  | case4 base size _ _ middle ih =>
    rw [dite_eq_ite] at ih
    obtain ⟨low, high, before, after⟩ := ih
    by_cases hp : p middle
    · rw [if_pos hp] at low high before after ⊢
      refine ⟨by omega, by omega, fun i _ hi => ?_, fun _ => after (by omega)⟩
      by_cases hm : i ≤ middle
      · exact closed i middle hm hp
      · exact before i (by omega) hi
    · rw [if_neg hp] at low high before after ⊢
      refine ⟨low, by omega, before, fun _ => ?_⟩
      by_cases he : bisect p base (size - size / 2) < base + (size - size / 2)
      · exact after he
      · rcases Nat.lt_or_ge middle (bisect p base (size - size / 2)) with hm | hm
        · exact absurd (before middle (by omega) hm) hp
        · rw [show bisect p base (size - size / 2) = middle by omega]
          simpa using hp

end DelegatedEscrow
