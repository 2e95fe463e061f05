/-
DelegatedEscrow/Proofs/Json/Lexeme.lean

Numbers and strings are read back as they are written.

A number is its notation, so nothing is lost in either direction; the one thing to watch
is where a part of it ends.  A run of digits is followed by a character that is no digit,
and a fraction by the letter of an exponent, or by nothing.

The body of a string is written character by character, and each character comes back
from what was written for it, whatever follows: as itself, from the letter behind a
backslash, or from the number of its code unit.
-/
import DelegatedEscrow.Json.Token

namespace DelegatedEscrow.Json

/-! ### Runs of characters -/

section
variable {p : Char → Bool} {cs rest : List Char}

/-- The text does not go on with a character of a kind. -/
def Stops (p : Char → Bool) (rest : List Char) : Prop := ∀ c ∈ rest.head?, p c = false

theorem stops_nil : Stops p [] := nofun

theorem stops_cons {c : Char} (h : p c = false) : Stops p (c :: rest) := by
  intro d hd
  obtain rfl : c = d := Option.some.inj hd
  exact h

theorem takeWhile_append (run : ∀ c ∈ cs, p c) (stops : Stops p rest) :
    (cs ++ rest).takeWhile p = cs := by
  rw [List.takeWhile_append_of_pos run]
  cases rest with
  | nil => simp
  | cons c rest => simp [stops c rfl]

theorem dropWhile_append (run : ∀ c ∈ cs, p c) (stops : Stops p rest) :
    (cs ++ rest).dropWhile p = rest := by
  rw [List.dropWhile_append_of_pos run]
  cases rest with
  | nil => rfl
  | cons c rest => simp [stops c rfl]

end

/-! ### Digits -/

namespace Literal

variable {ds cs : List Char} {n : Nat}

theorem isDigit_toDigits (n : Nat) : ∀ c ∈ Nat.toDigits 10 n, c.isDigit :=
  fun _ hc => Nat.isDigit_of_mem_toDigits (by decide) (by decide) hc

/-- A natural number begins with a digit, and a digit is neither a sign nor a letter nor
a point. -/
theorem toDigits_eq_cons (n : Nat) : ∃ d ds, Nat.toDigits 10 n = d :: ds ∧ d.isDigit := by
  rcases e : Nat.toDigits 10 n with - | ⟨d, ds⟩
  · exact absurd e Nat.toDigits_ne_nil
  · exact ⟨d, ds, rfl, isDigit_toDigits n d (by simp [e])⟩

@[simp] theorem natural?_toDigits : natural? (Nat.toDigits 10 n) = some n := by
  have digits : (Nat.toDigits 10 n).all Char.isDigit :=
    List.all_eq_true.2 (isDigit_toDigits n)
  rw [natural?, if_pos ⟨Nat.toDigits_ne_nil, digits⟩, Nat.ofDigitChars_ten_toDigits]

/-! ### Parts of a number -/

theorem signed?_of_digits {d : Char} (h : d.isDigit) :
    signed? (d :: ds) = (natural? (d :: ds)).map Int.ofNat := by
  unfold signed?
  split
  · next e => cases e; cases h
  · next e => cases e; cases h
  · rfl

theorem signed?_chars (n : Int) :
    signed? ((if n < 0 then ['-'] else []) ++ Nat.toDigits 10 n.natAbs) = some n := by
  by_cases negative : n < 0
  · rw [if_pos negative, List.singleton_append, signed?, natural?_toDigits]
    show some (-(n.natAbs : Int)) = some n
    congr 1
    omega
  · rw [if_neg negative, List.nil_append]
    obtain ⟨d, ds, e, digit⟩ := toDigits_eq_cons n.natAbs
    rw [e, signed?_of_digits digit, ← e, natural?_toDigits, Option.map_some]
    congr 1
    exact Int.natAbs_of_nonneg (by omega)

/-- An exponent as it is written, or nothing. -/
def exponentChars : Option Int → List Char
  | none => []
  | some n => 'e' :: (if n < 0 then ['-'] else []) ++ Nat.toDigits 10 n.natAbs

theorem exponent?_chars (e : Option Int) : exponent? (exponentChars e) = some e := by
  cases e with
  | none => rfl
  | some n =>
    show (signed? ((if n < 0 then ['-'] else []) ++ Nat.toDigits 10 n.natAbs)).map some = _
    rw [signed?_chars, Option.map_some]

theorem stops_exponentChars (e : Option Int) : Stops Char.isDigit (exponentChars e) := by
  cases e with
  | none => exact stops_nil
  | some n => exact stops_cons rfl

/-- A fraction as it is written, or nothing. -/
def fractionChars (fraction : List (Fin 10)) : List Char :=
  if fraction = [] then [] else '.' :: fraction.map fun d => d.val.digitChar

theorem chars_eq (l : Literal) :
    l.chars = (if l.negative then ['-'] else []) ++
      (Nat.toDigits 10 l.whole ++ (fractionChars l.fraction ++ exponentChars l.exponent)) := by
  rw [chars, fractionChars, List.append_assoc, List.append_assoc]
  cases l.exponent <;> rfl

theorem digitChar_digits (fraction : List (Fin 10)) :
    ∀ c ∈ fraction.map (fun d => d.val.digitChar), c.isDigit := by
  intro c hc
  obtain ⟨d, -, rfl⟩ := List.mem_map.1 hc
  simp [Nat.isDigit_digitChar]

/-- The digits of a fraction are the ones that were written. -/
theorem map_digitChar (fraction : List (Fin 10)) :
    (fraction.map fun d => d.val.digitChar).map
      (fun d => Fin.ofNat 10 (d.toNat - '0'.toNat)) = fraction := by
  rw [List.map_map]
  apply List.map_id''
  intro d
  apply Fin.ext
  show (d.val.digitChar.toNat - 48) % 10 = d.val
  rw [Nat.toNat_digitChar_sub_48_of_lt_ten d.isLt]
  exact Nat.mod_eq_of_lt d.isLt

/-- Without a point there is no fraction. -/
theorem tail?_of_ne_point (h : ∀ cs', cs ≠ '.' :: cs') :
    tail? cs = (exponent? cs).map fun exponent => ([], exponent) := by
  unfold tail?
  split
  · next cs' => exact absurd rfl (h cs')
  · rfl

theorem tail?_chars (fraction : List (Fin 10)) (e : Option Int) :
    tail? (fractionChars fraction ++ exponentChars e) = some (fraction, e) := by
  by_cases empty : fraction = []
  · subst empty
    have noPoint : ∀ cs, exponentChars e ≠ '.' :: cs := by
      intro cs
      cases e with
      | none => simp [exponentChars]
      | some n => simp [exponentChars]
    show tail? (exponentChars e) = _
    rw [tail?_of_ne_point noPoint, exponent?_chars, Option.map_some]
  · have digits := digitChar_digits fraction
    have stops := stops_exponentChars e
    have written : (fraction.map fun d => d.val.digitChar) ≠ [] := by
      rwa [Ne, List.map_eq_nil_iff]
    rw [fractionChars, if_neg empty, List.cons_append]
    simp only [tail?, takeWhile_append digits stops, dropWhile_append digits stops,
      exponent?_chars, map_digitChar, if_neg written]
    rfl

theorem stops_tail (fraction : List (Fin 10)) (e : Option Int) :
    Stops Char.isDigit (fractionChars fraction ++ exponentChars e) := by
  by_cases empty : fraction = []
  · rw [fractionChars, if_pos empty, List.nil_append]
    exact stops_exponentChars e
  · rw [fractionChars, if_neg empty, List.cons_append]
    exact stops_cons rfl

theorem ofUnsigned?_chars (l : Literal) :
    ofUnsigned? l.negative
      (Nat.toDigits 10 l.whole ++ (fractionChars l.fraction ++ exponentChars l.exponent)) =
      some l := by
  have digits := isDigit_toDigits l.whole
  have stops := stops_tail l.fraction l.exponent
  simp only [ofUnsigned?, takeWhile_append digits stops, dropWhile_append digits stops,
    natural?_toDigits, tail?_chars, Option.bind_eq_bind, Option.bind_some, ne_eq,
    not_true_eq_false, if_false]
  rfl

/-- **Numbers.**  Every number is read as it was written. -/
@[simp] theorem ofChars?_chars (l : Literal) : ofChars? l.chars = some l := by
  have unsigned := ofUnsigned?_chars l
  rw [chars_eq]
  rcases negative : l.negative with - | -
  · rw [negative] at unsigned
    obtain ⟨d, ds, e, digit⟩ := toDigits_eq_cons l.whole
    rw [if_neg (by simp), List.nil_append]
    rw [e, List.cons_append] at unsigned ⊢
    unfold ofChars?
    split
    · next e' => cases e'; cases digit
    · exact unsigned
  · rw [negative] at unsigned
    exact unsigned

end Literal

/-! ### Strings -/

namespace Quoted

variable {c : Char} {rest cs body : List Char} {p : Piece}

/-- How a character is written in the body of a string, and the piece that it comes back
as: as itself, by a letter behind a backslash, or by the number of its code unit. -/
inductive Written (c : Char) : List Char → Piece → Prop
  | plain (h : mustEscape c = false) : Written c [c] (.char c)
  | letter {l : Char} (h : escape? l = some c) : Written c ['\\', l] (.char c)
  | number (small : c.toNat < 0x20) :
    Written c ['\\', 'u', '0', '0', Nat.digitChar (c.toNat / 16), Nat.digitChar (c.toNat % 16)]
      (.unit c.toNat)

theorem written_encodeChar (c : Char) : ∃ p, Written c (encodeChar c) p := by
  unfold encodeChar
  split
  · next h => exact ⟨_, .letter (by rw [h]; rfl)⟩
  split
  · next h => exact ⟨_, .letter (by rw [h]; rfl)⟩
  split
  · next h => exact ⟨_, .letter (by rw [h]; rfl)⟩
  split
  · next h => exact ⟨_, .letter (by rw [h]; rfl)⟩
  split
  · next h => exact ⟨_, .letter (by rw [h]; rfl)⟩
  split
  · next h => exact ⟨_, .letter (by rw [h]; rfl)⟩
  split
  · next h => exact ⟨_, .letter (by rw [h]; rfl)⟩
  split
  · next small => exact ⟨_, .number small⟩
  · next quote backslash _ _ _ _ _ large =>
    exact ⟨_, .plain (by simp [mustEscape, quote, backslash, large])⟩

theorem hexDigit?_digitChar : ∀ n < 16, hexDigit? (Nat.digitChar n) = some n := by
  decide

theorem hex?_toNat (small : c.toNat < 0x20) :
    hex? ['0', '0', Nat.digitChar (c.toNat / 16), Nat.digitChar (c.toNat % 16)] =
      some c.toNat := by
  have zero : hexDigit? '0' = some 0 := rfl
  have high := hexDigit?_digitChar (c.toNat / 16) (by omega)
  have low := hexDigit?_digitChar (c.toNat % 16) (by omega)
  simp only [hex?, List.foldlM_cons, List.foldlM_nil, zero, high, low, Option.map_some,
    Option.bind_eq_bind, Option.bind_some, Option.pure_def]
  congr 1
  omega

theorem bind_some_cons {α : Type} {a : α} {x : Option (List α)} :
    (do return a :: (← x)) = x.map (a :: ·) := by
  cases x <;> rfl

/-- Whatever follows, a character comes back from what was written for it. -/
theorem Written.pieces? (h : Written c body p) (rest : List Char) :
    pieces? (body ++ rest) = (pieces? rest).map (p :: ·) := by
  cases h with
  | plain h =>
    have other : c ≠ '\\' := by
      rintro rfl
      cases h
    show Quoted.pieces? (c :: rest) = _
    rw [Quoted.pieces?, if_neg (by simp [h])]
    · exact fun _ _ _ _ _ e _ => other e
    · exact fun _ _ e _ => other e
  | @letter l h =>
    -- The letter of a code unit stands for no character.
    have other : l ≠ 'u' := by
      rintro rfl
      cases h
    show Quoted.pieces? ('\\' :: l :: rest) = _
    rw [Quoted.pieces?, h]
    · exact bind_some_cons
    · exact fun _ _ _ _ _ e _ => other e
  | number small =>
    show (do return Piece.unit (← hex? ['0', '0', _, _]) :: (← Quoted.pieces? rest)) = _
    rw [hex?_toNat small]
    exact bind_some_cons

/-- A piece that was written for a character puts this character in front. -/
theorem Written.join? (h : Written c body p) (ps : List Piece) :
    join? (p :: ps) = (join? ps).map (c :: ·) := by
  cases h with
  | plain h => rfl
  | letter h => rfl
  | number small =>
    -- Both halves of a pair have far larger numbers.
    have high : isHighSurrogate c.toNat = false := by
      rw [isHighSurrogate, Bool.and_eq_false_iff, decide_eq_false_iff_not]
      omega
    have low : isLowSurrogate c.toNat = false := by
      rw [isLowSurrogate, Bool.and_eq_false_iff, decide_eq_false_iff_not]
      omega
    cases ps with
    | nil => simp [Quoted.join?, high, low]
    | cons q ps => cases q <;> simp [Quoted.join?, high, low]

theorem pieces?_encode (cs : List Char) :
    ∃ ps, pieces? (cs.flatMap encodeChar) = some ps ∧ join? ps = some cs := by
  induction cs with
  | nil => exact ⟨[], rfl, rfl⟩
  | cons c cs ih =>
    obtain ⟨ps, pieces, joined⟩ := ih
    obtain ⟨p, written⟩ := written_encodeChar c
    refine ⟨p :: ps, ?_, ?_⟩
    · rw [List.flatMap_cons, written.pieces?, pieces, Option.map_some]
    · rw [written.join?, joined, Option.map_some]

/-- **Strings.**  Every string is read as it was written, also one that holds no text. -/
@[simp] theorem decode?_encode (t : Option String) : decode? (encode t) = some t := by
  cases t with
  | none => rfl
  | some s =>
    obtain ⟨ps, pieces, joined⟩ := pieces?_encode s.toList
    show (pieces? (s.toList.flatMap encodeChar)).map (fun ps => (join? ps).map String.ofList) = _
    rw [pieces, Option.map_some, joined, Option.map_some, String.ofList_toList]

end Quoted

end DelegatedEscrow.Json
