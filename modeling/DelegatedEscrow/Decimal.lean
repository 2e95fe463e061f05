/-
DelegatedEscrow/Decimal.lean

A decimal is a whole coefficient over a power of ten.  The coefficient has at
most 96 bits and the scale is at most 28, so the range is finite; within it the
arithmetic here is exact, and a product that does not fit is `none` rather than
rounded.

Zeros at the end of the fraction say nothing about the value.  `strip` drops
them, `normalize` gives the shortest scale of a value, and `text` writes the
plain form, without an exponent.

A text may have more digits than a decimal holds.  In front of the point they
all count, and a number with too many of them is refused; behind it, `ofText?`
takes the digits as far as they fit and rounds by the first that does not.
-/

namespace DelegatedEscrow

/-- Coefficients have 96 bits. -/
def Decimal.bound : Nat := 1 <<< 96

/-- The value `coefficient / 10 ^ scale`. -/
structure Decimal where
  coefficient : Int
  scale : Nat
  natAbs_lt : coefficient.natAbs < Decimal.bound
  scale_le : scale ≤ 28
deriving DecidableEq, Repr

namespace Decimal

/-- Drops the zeros at the end of a fraction of `s` digits. -/
def strip (c : Int) : Nat → Int × Nat
  | 0 => (c, 0)
  | s + 1 => if c % 10 = 0 then strip (c / 10) s else (c, s + 1)

theorem natAbs_strip_le (c : Int) (s : Nat) : (strip c s).1.natAbs ≤ c.natAbs := by
  induction s generalizing c with
  | zero => simp [strip]
  | succ s ih =>
    rw [strip]
    split
    · have := ih (c / 10)
      omega
    · simp

theorem strip_scale_le (c : Int) (s : Nat) : (strip c s).2 ≤ s := by
  induction s generalizing c with
  | zero => simp [strip]
  | succ s ih =>
    rw [strip]
    split
    · have := ih (c / 10)
      omega
    · simp

/-- The decimal `c / 10 ^ s`, if its coefficient and scale are in range. -/
def ofParts? (c : Int) (s : Nat) : Option Decimal :=
  if h : c.natAbs < bound ∧ s ≤ 28 then some ⟨c, s, h.1, h.2⟩ else none

/-- The same value at its shortest scale. -/
def normalize (v : Decimal) : Decimal where
  coefficient := (strip v.coefficient v.scale).1
  scale := (strip v.coefficient v.scale).2
  natAbs_lt := Nat.lt_of_le_of_lt (natAbs_strip_le _ _) v.natAbs_lt
  scale_le := Nat.le_trans (strip_scale_le _ _) v.scale_le

/-- The value times a whole number, at its shortest scale, if it is in range. -/
def times? (v : Decimal) (n : Nat) : Option Decimal :=
  let (c, s) := strip (v.coefficient * n) v.scale
  ofParts? c s

/-- The value as an integer, if it has no fraction. -/
def integer? (v : Decimal) : Option Int :=
  let unit : Int := (Nat.pow 10 v.scale : Nat)
  if v.coefficient % unit = 0 then some (v.coefficient / unit) else none

/-! ### Text -/

/-- Plain decimal text, with all digits of the scale. -/
def text (v : Decimal) : String :=
  let digits := Nat.toDigits 10 v.coefficient.natAbs
  let padded := List.replicate (v.scale + 1 - digits.length) '0' ++ digits
  let whole := padded.take (padded.length - v.scale)
  let fraction := if v.scale = 0 then [] else '.' :: padded.drop (padded.length - v.scale)
  let sign := if v.coefficient < 0 then ['-'] else []
  String.ofList (sign ++ whole ++ fraction)

/-- The decimal one unit of the last place above `c / 10 ^ s`.  If the coefficient
has no room for it, the last place is given up, and the neighbour one place
higher stands for it. -/
def nextAbove? (c s : Nat) : Option Decimal :=
  if c + 1 < bound then ofParts? (c + 1 : Nat) s
  else match s with
    | 0 => none
    | s + 1 => ofParts? ((c + 1 + 5) / 10 : Nat) s

/-- Reads the rest of a fraction, after digits that make up `c / 10 ^ s`.  Reading
ends at the first digit that has no place in a decimal: from 5 on it rounds up,
and nothing behind it counts.  Underscores may stand among the digits; at the
largest scale an underscore ends the number, too. -/
def ofFraction? (c s : Nat) : List Char → Option Decimal
  | [] => ofParts? c s
  | '_' :: cs => if s < 28 then ofFraction? c s cs else ofParts? c s
  | d :: cs =>
    if d.isDigit then
      let c' := Nat.ofDigitChars 10 [d] c
      if c' < bound ∧ s < 28 then ofFraction? c' (s + 1) cs
      else if d < '5' then ofParts? c s
      else nextAbove? c s
    else none

/-- Reads the rest of a number, after whole digits that make up `c`. -/
def ofWhole? (c : Nat) : List Char → Option Decimal
  | [] => ofParts? c 0
  | '.' :: cs => ofFraction? c 0 cs
  | '_' :: cs => ofWhole? c cs
  | d :: cs => if d.isDigit then ofWhole? (Nat.ofDigitChars 10 [d] c) cs else none

/-- A number starts with a digit, or with a point and a digit. -/
def startsNumber : List Char → Bool
  | '.' :: d :: _ => d.isDigit
  | d :: _ => d.isDigit
  | [] => false

/-- Reads a number without a sign. -/
def ofUnsigned? (cs : List Char) : Option Decimal :=
  if startsNumber cs then ofWhole? 0 cs else none

/-- The negated value. -/
def neg (v : Decimal) : Decimal where
  coefficient := -v.coefficient
  scale := v.scale
  natAbs_lt := by simpa using v.natAbs_lt
  scale_le := v.scale_le

/-- Reads plain decimal text, with a sign or without.  A minus sign before zero has
no effect. -/
def ofText? (s : String) : Option Decimal :=
  match s.toList with
  | '-' :: cs => (ofUnsigned? cs).map neg
  | '+' :: cs => ofUnsigned? cs
  | cs => ofUnsigned? cs

end Decimal

end DelegatedEscrow
