/-
DelegatedEscrow/Guard.lean

A rule of the library is a list of guards followed by an effect.  A guard either
lets the rule go on or names the fault that stops it, and the first one that
stops it decides which fault is reported.

`bind_eq_ok_iff` and `bind_eq_error_iff` take such a list apart, one guard at a
time; with them nobody has to unfold a rule to learn when it succeeds or why it
failed.
-/

namespace DelegatedEscrow

variable {ε α β : Type}

/-- Goes on if `p` holds and stops with `fault` otherwise. -/
def require (p : Prop) [Decidable p] (fault : ε) : Except ε Unit :=
  if p then .ok () else .error fault

/-- Goes on with the value if there is one and stops with `fault` otherwise. -/
def demand (value : Option α) (fault : ε) : Except ε α :=
  match value with
  | some a => .ok a
  | none => .error fault

section
variable {p : Prop} [Decidable p] {fault other : ε} {value : Option α} {a : α}

@[simp] theorem require_eq_ok_iff {u : Unit} : require p fault = .ok u ↔ p := by
  unfold require
  split <;> simp_all

@[simp] theorem require_eq_error_iff :
    require p fault = .error other ↔ ¬ p ∧ fault = other := by
  unfold require
  split <;> simp_all

@[simp] theorem demand_eq_ok_iff : demand value fault = .ok a ↔ value = some a := by
  cases value <;> simp [demand]

@[simp] theorem demand_eq_error_iff :
    demand value fault = .error other ↔ value = none ∧ fault = other := by
  cases value <;> simp [demand]

end

/-! ### Lists of guards -/

section
variable {x : Except ε α} {f : α → Except ε β} {fault : ε} {a : α} {b : β}

@[simp] theorem pure_eq_ok_iff {a' : α} : (pure a : Except ε α) = .ok a' ↔ a = a' := by
  simp [pure, Except.pure]

@[simp] theorem pure_ne_error : (pure a : Except ε α) ≠ .error fault := by
  simp [pure, Except.pure]

theorem bind_eq_ok_iff : x >>= f = .ok b ↔ ∃ a, x = .ok a ∧ f a = .ok b := by
  cases x <;> simp [bind, Except.bind]

theorem bind_eq_error_iff :
    x >>= f = .error fault ↔ x = .error fault ∨ ∃ a, x = .ok a ∧ f a = .error fault := by
  cases x <;> simp [bind, Except.bind]

end

end DelegatedEscrow
