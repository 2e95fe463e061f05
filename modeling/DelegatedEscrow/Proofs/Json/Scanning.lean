/-
DelegatedEscrow/Proofs/Json/Scanning.lean

The scanner takes a text apart into the tokens that it was made of.

It finds the end of a token in three ways.  A mark is one character long.  A string ends
at its closing quote, and no character in its body is taken for that.  A word or a number
ends only where something else begins, so it comes back if what follows does not go on in
the same way (`tokens?_chars_append`).  Between two such *bare* tokens nothing would tell
where the first one ends; a text of tokens without two of them side by side is scanned as it
was written, with or without blanks (`Spread.tokens?`).
-/
import Mathlib.Data.List.Chain
import DelegatedEscrow.Proofs.Json.Lexeme

namespace DelegatedEscrow.Json

/-! ### Bare tokens -/

namespace Token

/-- A word or a number, which has no end of its own. -/
def Bare : Token → Prop
  | scalar (.text _) => False
  | scalar _ => True
  | _ => False

variable {rest : List Char} {c : Char} {t u : Token}

/-- Marks and strings begin with a character that is no part of a word. -/
theorem stops_chars (h : ¬ t.Bare) : Stops isBare (t.chars ++ rest) := by
  cases t with
  | scalar s =>
    cases s with
    | text t => exact stops_cons rfl
    | null | bool b | number l => exact absurd trivial h
  | _ => exact stops_cons rfl

theorem isBare_of_isDigit (h : c.isDigit) : isBare c := by
  simp [isBare, Char.isAlphanum, h]

theorem isBare_exponentChars (e : Option Int) : ∀ c ∈ Literal.exponentChars e, isBare c := by
  intro c hc
  cases e with
  | none => cases hc
  | some n =>
    rcases List.mem_append.1 hc with front | digits
    · by_cases negative : n < 0
      · rw [if_pos negative, List.mem_cons, List.mem_singleton] at front
        rcases front with rfl | rfl <;> rfl
      · rw [if_neg negative, List.mem_singleton] at front
        rw [front]
        rfl
    · exact isBare_of_isDigit (Literal.isDigit_toDigits _ c digits)

theorem isBare_of_isBlank (h : isBlank c) : isBare c = false := by
  simp only [isBlank, Bool.or_eq_true, decide_eq_true_eq] at h
  rcases h with ((rfl | rfl) | rfl) | rfl <;> rfl

/-- All characters of a number belong to one run. -/
theorem isBare_chars (l : Literal) : ∀ c ∈ l.chars, isBare c := by
  intro c hc
  rw [Literal.chars_eq] at hc
  simp only [List.mem_append] at hc
  rcases hc with sign | whole | fraction | exponent
  · by_cases negative : l.negative
    · rw [if_pos negative, List.mem_singleton] at sign
      rw [sign]
      rfl
    · rw [if_neg negative] at sign
      cases sign
  · exact isBare_of_isDigit (Literal.isDigit_toDigits _ c whole)
  · by_cases empty : l.fraction = []
    · rw [Literal.fractionChars, if_pos empty] at fraction
      cases fraction
    · rw [Literal.fractionChars, if_neg empty] at fraction
      rcases List.mem_cons.1 fraction with rfl | digits
      · rfl
      · exact isBare_of_isDigit (Literal.digitChar_digits _ c digits)
  · exact isBare_exponentChars _ c exponent

/-- A number begins with a sign or a digit. -/
theorem chars_eq_cons (l : Literal) : ∃ c cs, l.chars = c :: cs ∧ (c = '-' ∨ c.isDigit) := by
  rw [Literal.chars_eq]
  by_cases negative : l.negative
  · rw [if_pos negative]
    exact ⟨_, _, rfl, .inl rfl⟩
  · obtain ⟨d, ds, e, digit⟩ := Literal.toDigits_eq_cons l.whole
    rw [if_neg negative, e]
    exact ⟨d, _, rfl, .inr digit⟩

/-- No number is spelled like a word. -/
theorem ofRun?_chars (l : Literal) : ofRun? l.chars = some (scalar (.number l)) := by
  obtain ⟨c, cs, e, start⟩ := chars_eq_cons l
  have letter : ∀ d ds, d ≠ '-' → d.isDigit = false → l.chars ≠ d :: ds := by
    intro d ds sign digit same
    obtain ⟨rfl, -⟩ := List.cons.inj (e.symm.trans same)
    rcases start with rfl | start
    · exact sign rfl
    · rw [digit] at start
      cases start
  have not_null : l.chars ≠ "null".toList := letter 'n' _ (by decide) rfl
  have not_true : l.chars ≠ "true".toList := letter 't' _ (by decide) rfl
  have not_false : l.chars ≠ "false".toList := letter 'f' _ (by decide) rfl
  rw [ofRun?, if_neg not_null, if_neg not_true, if_neg not_false, Literal.ofChars?_chars,
    Option.map_some]

/-! ### Steps of the scanner -/

namespace Scan

variable {s next : Scan} {ts : List Token} {read cs body : List Char}

theorem tokens?_cons (h : s.step? c = some (ts, next)) :
    s.tokens? (c :: cs) = (next.tokens? cs).map (ts ++ ·) := by
  rw [tokens?, h]
  show (do return ts ++ (← next.tokens? cs)) = _
  cases next.tokens? cs <;> rfl

/-- A step that completes no token. -/
theorem tokens?_cons_of_silent (h : s.step? c = some ([], next)) :
    s.tokens? (c :: cs) = next.tokens? cs := by
  rw [tokens?_cons h]
  exact Option.map_id'

/-- A run goes on as long as it can. -/
theorem tokens?_run (bare : ∀ c ∈ cs, isBare c) :
    (run read).tokens? (cs ++ rest) = (run (cs.reverse ++ read)).tokens? rest := by
  induction cs generalizing read with
  | nil => rfl
  | cons c cs ih =>
    have here : (run read).step? c = some ([], run (c :: read)) :=
      if_pos (bare c List.mem_cons_self)
    rw [List.cons_append, tokens?_cons_of_silent here,
      ih fun d hd => bare d (List.mem_cons_of_mem _ hd), List.reverse_cons, List.append_assoc,
      List.singleton_append]

/-- Where a run cannot go on it is one token, and what follows is scanned on its own. -/
theorem tokens?_end_run (word : ofRun? read.reverse = some t) (stops : Stops isBare rest) :
    (run read).tokens? rest = (between.tokens? rest).map (t :: ·) := by
  cases rest with
  | nil =>
    show (ofRun? read.reverse).map ([·]) = _
    rw [word]
    rfl
  | cons c rest =>
    have ends : isBare c = false := stops c rfl
    rcases e : begin? c with - | ⟨ts, next⟩
    · -- Nothing begins like this, so the text is refused either way.
      have here : (run read).step? c = none := by
        rw [step?, if_neg (by simp [ends]), word, e]
        rfl
      have alone : between.step? c = none := e
      rw [tokens?, tokens?, here, alone]
      rfl
    · have here : (run read).step? c = some (t :: ts, next) := by
        rw [step?, if_neg (by simp [ends]), word, e]
        rfl
      have alone : between.step? c = some (ts, next) := e
      rw [tokens?_cons here, tokens?_cons alone, Option.map_map]
      rfl

/-- A word or a number, spelled out. -/
theorem tokens?_word (bare : ∀ c ∈ cs, isBare c) (word : ofRun? cs = some t) (some_char : cs ≠ [])
    (stops : Stops isBare rest) :
    between.tokens? (cs ++ rest) = (between.tokens? rest).map (t :: ·) := by
  obtain ⟨c, cs, rfl⟩ := List.exists_cons_of_ne_nil some_char
  have start : isBare c := bare c List.mem_cons_self
  have open_run : between.step? c = some ([], run [c]) := by
    have visible : isBlank c = false := by
      rw [← Bool.not_eq_true]
      intro blank
      rw [isBare_of_isBlank blank] at start
      cases start
    show begin? c = _
    rw [begin?, if_neg (by simp [visible]), if_pos start]
  rw [List.cons_append, tokens?_cons_of_silent open_run,
    tokens?_run fun d hd => bare d (List.mem_cons_of_mem _ hd)]
  apply tokens?_end_run _ stops
  rwa [List.reverse_append, List.reverse_reverse, List.reverse_singleton, List.singleton_append]

/-! ### Strings -/

theorem tokens?_inside (quote : c ≠ '"') (backslash : c ≠ '\\') :
    (quoted read).tokens? (c :: rest) = (quoted (c :: read)).tokens? rest := by
  apply tokens?_cons_of_silent
  rw [step?, if_neg quote, if_neg backslash]

/-- Whatever stands behind a backslash is read over. -/
theorem tokens?_behind :
    (quoted read).tokens? ('\\' :: c :: rest) = (quoted (c :: '\\' :: read)).tokens? rest := by
  have backslash : (quoted read).step? '\\' = some ([], escaped ('\\' :: read)) := rfl
  have char : (escaped ('\\' :: read)).step? c = some ([], quoted (c :: '\\' :: read)) := rfl
  rw [tokens?_cons_of_silent backslash, tokens?_cons_of_silent char]

/-- The closing quote is not found inside of what was written for a character. -/
theorem tokens?_written {p : Quoted.Piece} (h : Quoted.Written c body p) :
    (quoted read).tokens? (body ++ rest) = (quoted (body.reverse ++ read)).tokens? rest := by
  cases h with
  | plain h =>
    simp only [Quoted.mustEscape, Bool.or_eq_false_iff, decide_eq_false_iff_not] at h
    exact tokens?_inside h.1.1 h.1.2
  | letter h => exact tokens?_behind
  | number small =>
    have hex : ∀ n < 16, Nat.digitChar n ≠ '"' ∧ Nat.digitChar n ≠ '\\' := by decide
    have high := hex (c.toNat / 16) (by omega)
    have low := hex (c.toNat % 16) (by omega)
    show (quoted read).tokens? ('\\' :: 'u' :: '0' :: '0' :: _ :: _ :: rest) = _
    rw [tokens?_behind, tokens?_inside (by decide) (by decide),
      tokens?_inside (by decide) (by decide), tokens?_inside high.1 high.2,
      tokens?_inside low.1 low.2]
    rfl

theorem tokens?_characters (cs : List Char) :
    (quoted read).tokens? (cs.flatMap Quoted.encodeChar ++ rest) =
      (quoted ((cs.flatMap Quoted.encodeChar).reverse ++ read)).tokens? rest := by
  induction cs generalizing read with
  | nil => rfl
  | cons c cs ih =>
    obtain ⟨p, written⟩ := Quoted.written_encodeChar c
    rw [List.flatMap_cons, List.append_assoc, tokens?_written written, ih, List.reverse_append,
      List.append_assoc]

theorem tokens?_body (t : Option String) :
    (quoted []).tokens? (Quoted.encode t ++ rest) =
      (quoted (Quoted.encode t).reverse).tokens? rest := by
  cases t with
  | none =>
    show (quoted []).tokens? ('\\' :: 'u' :: 'd' :: '8' :: '0' :: '0' :: rest) = _
    rw [tokens?_behind, tokens?_inside (by decide) (by decide),
      tokens?_inside (by decide) (by decide), tokens?_inside (by decide) (by decide),
      tokens?_inside (by decide) (by decide)]
    rfl
  | some s =>
    show (quoted []).tokens? (s.toList.flatMap Quoted.encodeChar ++ rest) = _
    rw [tokens?_characters, List.append_nil]
    rfl

theorem tokens?_string (t : Option String) :
    between.tokens? ((Scalar.text t).chars ++ rest) =
      (between.tokens? rest).map (scalar (.text t) :: ·) := by
  have opens : between.step? '"' = some ([], quoted []) := rfl
  have closes : (quoted (Quoted.encode t).reverse).step? '"' =
      some ([scalar (.text t)], between) := by
    rw [step?, if_pos rfl, List.reverse_reverse, Quoted.decode?_encode, Option.map_some]
  show between.tokens? ('"' :: (Quoted.encode t ++ ['"']) ++ rest) = _
  rw [List.cons_append, List.append_assoc, tokens?_cons_of_silent opens, tokens?_body,
    List.singleton_append, tokens?_cons closes]
  rfl

/-! ### Tokens -/

theorem tokens?_mark (h : begin? c = some ([t], between)) :
    between.tokens? ([c] ++ rest) = (between.tokens? rest).map (t :: ·) := by
  have here : between.step? c = some ([t], between) := h
  exact tokens?_cons here

theorem tokens?_scalar (s : Scalar) (stops : (scalar s).Bare → Stops isBare rest) :
    between.tokens? (s.chars ++ rest) = (between.tokens? rest).map (scalar s :: ·) := by
  cases s with
  | null =>
    have bare : "null".toList.all isBare := rfl
    exact tokens?_word (List.all_eq_true.1 bare) rfl (List.cons_ne_nil _ _) (stops trivial)
  | bool b =>
    have bare : (Scalar.bool b).chars.all isBare := by cases b <;> rfl
    cases b <;>
      exact tokens?_word (List.all_eq_true.1 bare) rfl (List.cons_ne_nil _ _) (stops trivial)
  | number l =>
    obtain ⟨c, cs, e, -⟩ := chars_eq_cons l
    have some_char : l.chars ≠ [] := by simp [e]
    exact tokens?_word (isBare_chars l) (ofRun?_chars l) some_char (stops trivial)
  | text t => exact tokens?_string t

/-- A token is found where it stands, unless what follows could be a part of it. -/
theorem tokens?_chars_append (t : Token) (stops : t.Bare → Stops isBare rest) :
    between.tokens? (t.chars ++ rest) = (between.tokens? rest).map (t :: ·) := by
  cases t with
  | scalar s => exact tokens?_scalar s stops
  | _ => exact tokens?_mark rfl

end Scan

/-! ### Whole texts -/

/-- No word or number is followed by another. -/
def Spaced (ts : List Token) : Prop := ts.IsChain fun t u => ¬ (t.Bare ∧ u.Bare)

/-- The tokens are spelled out one after the other, with any blanks before, between and
behind them. -/
inductive Spread : List Token → List Char → Prop
  | nil : Spread [] []
  | blank {ts : List Token} {c : Char} {cs : List Char} (h : isBlank c) (rest : Spread ts cs) :
    Spread ts (c :: cs)
  | token (t : Token) {ts : List Token} {cs : List Char} (rest : Spread ts cs) :
    Spread (t :: ts) (t.chars ++ cs)

/-- There need not be any blanks. -/
theorem spread_flatMap (ts : List Token) : Spread ts (ts.flatMap chars) := by
  induction ts with
  | nil => exact .nil
  | cons t ts ih => exact .token t ih

/-- A text that begins with a blank, a mark or a string does not go on like a word. -/
theorem Spread.stops {ts : List Token} {cs : List Char} (h : Spread ts cs)
    (front : ∀ u ∈ ts.head?, ¬ u.Bare) : Stops isBare cs := by
  cases h with
  | nil => exact stops_nil
  | blank h _ => exact stops_cons (isBare_of_isBlank h)
  | token u _ => exact stops_chars (front u rfl)

/-- **Scanning.**  A text is taken apart into the tokens that it was made of, wherever there
are blanks. -/
theorem Spread.tokens? {ts : List Token} {cs : List Char} (h : Spread ts cs)
    (spaced : Spaced ts) : Scan.between.tokens? cs = some ts := by
  induction h with
  | nil => rfl
  | @blank ts c cs h _ ih =>
    have silent : Scan.between.step? c = some ([], .between) := by
      rw [Scan.step?, Scan.begin?, if_pos h]
    rw [Scan.tokens?_cons_of_silent silent, ih spaced]
  | @token t ts cs rest ih =>
    have stops : t.Bare → Stops isBare cs := by
      intro bare
      apply rest.stops
      intro u hu bare'
      obtain ⟨ts, rfl⟩ := List.head?_eq_some_iff.1 hu
      exact (List.isChain_cons_cons.1 spaced).1 ⟨bare, bare'⟩
    rw [Scan.tokens?_chars_append t stops, ih spaced.tail, Option.map_some]

end Token

end DelegatedEscrow.Json
