/-
DelegatedEscrow/Json/Literal.lean

A JSON number is its notation: a sign, a whole part without leading zeros,
perhaps a fraction, perhaps an exponent.  What number that means is up to the
reader.  Every reader in this library wants an integer, and takes a literal for
one only if it is written as one: neither `1.0` nor `1e3` is an integer, and
neither is `-0`, which only a floating-point number can be.

Some readers keep numbers in double precision before they look at them.
`Literal.Finite` says which literals such a reader can hold.
-/

namespace DelegatedEscrow.Json

/-- A number as it is written.  An empty fraction is none, and has no point. -/
structure Literal where
  negative : Bool
  whole : Nat
  fraction : List (Fin 10)
  exponent : Option Int
deriving DecidableEq, Repr

namespace Literal

/-! ### Integers -/

/-- An integer as it is written. -/
def ofInt (n : Int) : Literal := ⟨n < 0, n.natAbs, [], none⟩

/-- The integer that is written, if one is. -/
def integer? (l : Literal) : Option Int :=
  if l.fraction = [] ∧ l.exponent = none ∧ ¬ (l.negative ∧ l.whole = 0) then
    some (if l.negative then -l.whole else l.whole)
  else none

@[simp] theorem integer?_ofInt (n : Int) : (ofInt n).integer? = some n := by
  simp only [integer?, ofInt, decide_eq_true_eq, Int.natAbs_eq_zero]
  rw [if_pos ⟨trivial, trivial, by omega⟩]
  congr 1
  split <;> omega

/-! ### Notation -/

/-- The characters of a literal. -/
def chars (l : Literal) : List Char :=
  (if l.negative then ['-'] else []) ++ Nat.toDigits 10 l.whole ++
    (if l.fraction = [] then [] else '.' :: l.fraction.map fun d => d.val.digitChar) ++
    match l.exponent with
    | none => []
    | some n => 'e' :: (if n < 0 then ['-'] else []) ++ Nat.toDigits 10 n.natAbs

/-- Reads digits, at least one. -/
def natural? (ds : List Char) : Option Nat :=
  if ds ≠ [] ∧ ds.all Char.isDigit then some (Nat.ofDigitChars 10 ds 0) else none

/-- Reads what follows the letter of an exponent. -/
def signed? : List Char → Option Int
  | '+' :: ds => (natural? ds).map Int.ofNat
  | '-' :: ds => (natural? ds).map fun n => -n
  | ds => (natural? ds).map Int.ofNat

/-- Reads an exponent, or the end of the literal. -/
def exponent? : List Char → Option (Option Int)
  | [] => some none
  | c :: cs => if c = 'e' ∨ c = 'E' then (signed? cs).map some else none

/-- Reads a fraction and an exponent. -/
def tail? : List Char → Option (List (Fin 10) × Option Int)
  | '.' :: cs => do
    let ds := cs.takeWhile Char.isDigit
    if ds = [] then none
    let exponent ← exponent? (cs.dropWhile Char.isDigit)
    return (ds.map fun d => Fin.ofNat 10 (d.toNat - '0'.toNat), exponent)
  | cs => (exponent? cs).map fun exponent => ([], exponent)

/-- Reads a literal without its sign.  The whole part has no leading zeros. -/
def ofUnsigned? (negative : Bool) (cs : List Char) : Option Literal := do
  let ds := cs.takeWhile Char.isDigit
  let whole ← natural? ds
  if ds ≠ Nat.toDigits 10 whole then none
  let (fraction, exponent) ← tail? (cs.dropWhile Char.isDigit)
  return ⟨negative, whole, fraction, exponent⟩

/-- Reads a literal. -/
def ofChars? : List Char → Option Literal
  | '-' :: cs => ofUnsigned? true cs
  | cs => ofUnsigned? false cs

/-! ### Double precision -/

/-- Takes digits into a word as long as they fit, and counts those left over. -/
def intake (word : Nat) : List (Fin 10) → Nat × Nat
  | [] => (word, 0)
  | d :: ds =>
    if 10 * word + d < UInt64.size then intake (10 * word + d) ds else (word, ds.length + 1)

/-- The word and the power of ten whose product a literal is taken for.  Digits
that do not fit the word are counted but not kept. -/
def scaled (l : Literal) : Nat × Int :=
  let digits := (Nat.toDigits 10 l.whole).map fun d => Fin.ofNat 10 (d.toNat - '0'.toNat)
  let (word, beyond) := intake 0 digits
  let (word, dropped) := intake word l.fraction
  (word, l.exponent.getD 0 + beyond + dropped - l.fraction.length)

/-- The number of double precision nearest to `n`, of two the even one. -/
def nearestDouble (n : Nat) : Nat :=
  let ulp := 1 <<< (n.log2 - 52)
  let low := n / ulp * ulp
  let excess := 2 * (n - low)
  if excess < ulp ∨ excess = ulp ∧ n / ulp % 2 = 0 then low else low + ulp

/-- From here on a number rounds to infinity. -/
def overflowBound : Nat := 1 <<< 1024 - 1 <<< 970

/-- A reader that works in double precision can hold the number.  It multiplies
the word by a power of ten, both rounded, and refuses an infinite product. -/
def Finite (l : Literal) : Prop :=
  let (word, exponent) := l.scaled
  word = 0 ∨ exponent ≤ 308 ∧
    nearestDouble word * nearestDouble (Nat.pow 10 exponent.toNat) < overflowBound

instance (l : Literal) : Decidable l.Finite := by
  unfold Finite
  infer_instance

end Literal

end DelegatedEscrow.Json
