/-
DelegatedEscrow/Proofs/Json/Document.lean

A value is read back from its text.

Behind the tokens of a value the reader stands where it would stand if the value had been
handed to it whole:

    value stack  --- v.tokens --->  supply v stack.

This holds for any frames that are open around the value, so that the parts of an array or
an object can be read one after the other, each under the frame of what it is part of.

A text is also the only place where two numbers could run together.  They never do, since
the reader takes no value right behind another: tokens that it goes through at all are
spaced (`Reads.spaced`).
-/
import DelegatedEscrow.Json.Tree
import DelegatedEscrow.Proofs.Json.Scanning

namespace DelegatedEscrow.Json

namespace Reading

variable {r r₁ r₂ : Reading} {t u : Token} {ts us : List Token} {v : Json}
variable {stack : List Frame}

/-! ### Reading on -/

/-- The tokens take the reader from one place to another. -/
def Reads (r : Reading) (ts : List Token) (r₁ : Reading) : Prop :=
  ts.foldlM step? r = some r₁

namespace Reads

theorem nil : Reads r [] r := rfl

theorem cons_iff : Reads r (t :: ts) r₂ ↔ ∃ r₁, r.step? t = some r₁ ∧ Reads r₁ ts r₂ := by
  rw [Reads, List.foldlM_cons]
  exact Option.bind_eq_some_iff

theorem cons (here : r.step? t = some r₁) (rest : Reads r₁ ts r₂) : Reads r (t :: ts) r₂ :=
  cons_iff.2 ⟨r₁, here, rest⟩

theorem append (first : Reads r ts r₁) (second : Reads r₁ us r₂) : Reads r (ts ++ us) r₂ := by
  rw [Reads, List.foldlM_append, first]
  exact second

end Reads

/-! ### A value and its parts -/

theorem tokens_eq_cons (v : Json) : ∃ t ts, v.tokens = t :: ts ∧ t ≠ .closeArray := by
  cases v with
  | scalar s => exact ⟨.scalar s, [], by rw [tokens], nofun⟩
  | array items => exact ⟨.openArray, itemTokens items, by rw [tokens], nofun⟩
  | object members => exact ⟨.openObject, memberTokens members, by rw [tokens], nofun⟩

/-- Behind an opening bracket a value is an item of an array that is still empty. -/
theorem reads_firstItem (h : Reads (value (.array [] :: stack)) v.tokens r) :
    Reads (firstItem stack) v.tokens r := by
  obtain ⟨t, ts, e, other⟩ := tokens_eq_cons v
  rw [e, Reads.cons_iff] at h ⊢
  have same : (firstItem stack).step? t = (value (.array [] :: stack)).step? t := by
    cases t with
    | closeArray => exact absurd rfl other
    | _ => rfl
  rwa [same]

-- The induction follows the functions that write the tokens.  The stack is arbitrary, as each
-- part is read under one more frame.
mutual

/-- **Reading.**  The tokens of a value supply this value. -/
theorem reads_tokens (stack : List Frame) :
    (v : Json) → Reads (value stack) v.tokens (supply v stack)
  | scalar s => by
    rw [tokens]
    exact .cons rfl .nil
  | array items => by
    rw [tokens]
    exact .cons rfl (reads_items stack items)
  | object members => by
    rw [tokens]
    exact .cons rfl (reads_members stack members)

theorem reads_items (stack : List Frame) :
    (items : List Json) → Reads (firstItem stack) (itemTokens items) (supply (array items) stack)
  | [] => by
    rw [itemTokens]
    exact .cons rfl .nil
  | v :: rest => by
    rw [itemTokens]
    exact (reads_firstItem (reads_tokens _ v)).append (reads_moreItems stack [v] rest)

/-- The items that have been read wait in reverse. -/
theorem reads_moreItems (stack : List Frame) (read : List Json) :
    (items : List Json) →
      Reads (afterItem read stack) (moreItemTokens items)
        (supply (array (read.reverse ++ items)) stack)
  | [] => by
    rw [moreItemTokens, List.append_nil]
    exact .cons rfl .nil
  | v :: rest => by
    -- Behind the comma an item is read under the frame of those before it.
    have more := reads_moreItems stack (v :: read) rest
    rw [List.reverse_cons, List.append_assoc, List.singleton_append] at more
    rw [moreItemTokens]
    exact .cons rfl ((reads_tokens (.array read :: stack) v).append more)

theorem reads_members (stack : List Frame) :
    (members : List (Key × Json)) →
      Reads (firstKey stack) (memberTokens members) (supply (object members) stack)
  | [] => by
    rw [memberTokens]
    exact .cons rfl .nil
  | (k, v) :: rest => by
    rw [memberTokens]
    exact .cons rfl (.cons rfl
      ((reads_tokens (.object [] k :: stack) v).append (reads_moreMembers stack [(k, v)] rest)))

theorem reads_moreMembers (stack : List Frame) (read : List (Key × Json)) :
    (members : List (Key × Json)) →
      Reads (afterMember read stack) (moreMemberTokens members)
        (supply (object (read.reverse ++ members)) stack)
  | [] => by
    rw [moreMemberTokens, List.append_nil]
    exact .cons rfl .nil
  | (k, v) :: rest => by
    have more := reads_moreMembers stack ((k, v) :: read) rest
    rw [List.reverse_cons, List.append_assoc, List.singleton_append] at more
    rw [moreMemberTokens]
    exact .cons rfl (.cons rfl (.cons rfl
      ((reads_tokens (.object read k :: stack) v).append more)))

end

/-! ### No two values in a row -/

/-- A word or a number is read only where it is a value. -/
theorem eq_supply_of_bare (bare : t.Bare) (h : r.step? t = some r₁) :
    ∃ v stack, r₁ = supply v stack := by
  cases t with
  | scalar s =>
    cases r with
    | value stack => exact ⟨_, _, (Option.some.inj h).symm⟩
    | firstItem stack => exact ⟨_, _, (Option.some.inj h).symm⟩
    | firstKey stack | nextKey members stack => cases s <;> cases h; cases bare
    | _ => cases h
  | _ => cases bare

/-- Behind a value there is no place for a word or a number. -/
theorem not_bare_of_supply (h : (supply v stack).step? t = some r) : ¬ t.Bare := by
  intro bare
  cases t with
  | scalar s =>
    rcases stack with - | ⟨_ | _, _⟩ <;> cases h
  | _ => cases bare

/-- Tokens that the reader goes through can be scanned. -/
theorem Reads.spaced (h : Reads r ts r₂) : Token.Spaced ts := by
  induction ts generalizing r with
  | nil => exact .nil
  | cons t ts ih =>
    obtain ⟨r₁, here, rest⟩ := cons_iff.1 h
    cases ts with
    | nil => exact .singleton t
    | cons u ts =>
      obtain ⟨r', there, -⟩ := cons_iff.1 rest
      refine .cons_cons ?_ (ih rest)
      rintro ⟨bare, bare'⟩
      -- The first one has supplied a value, so the second one is refused.
      obtain ⟨v, stack, rfl⟩ := eq_supply_of_bare bare here
      exact not_bare_of_supply there bare'

end Reading

/-! ### Documents -/

theorem spaced_tokens (v : Json) : Token.Spaced v.tokens :=
  (Reading.reads_tokens [] v).spaced

@[simp] theorem ofTokens?_tokens (v : Json) : ofTokens? v.tokens = some v := by
  have reads : v.tokens.foldlM Reading.step? (.value []) = some (.complete v) :=
    Reading.reads_tokens [] v
  rw [ofTokens?, reads]
  rfl

/-- **Documents.**  Every value is read back from any text of its tokens. -/
theorem ofText?_spread {s : String} {v : Json} (h : Token.Spread v.tokens s.toList) :
    ofText? s = some v := by
  have scanned : Token.ofText? s = some v.tokens := h.tokens? (spaced_tokens v)
  rw [ofText?, scanned, Option.bind_some, ofTokens?_tokens]

theorem spread_render (v : Json) : Token.Spread v.tokens v.render.toList := by
  rw [render, String.toList_ofList]
  exact Token.spread_flatMap v.tokens

@[simp] theorem ofText?_render (v : Json) : ofText? v.render = some v :=
  ofText?_spread (spread_render v)

end DelegatedEscrow.Json
