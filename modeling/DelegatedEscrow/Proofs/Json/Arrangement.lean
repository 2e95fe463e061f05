/-
DelegatedEscrow/Proofs/Json/Arrangement.lean

Decoding does not depend on how a submitter lays out a value.

All forms but one are tolerant.  An instruction is held as a tree before its tag is known,
so its tag has to be found among the members first, wherever it stands, and only then are
the fields read that an instruction of this tag has.  Here the flags add up as well: what
is lost of an instruction is lost of its tag or of its fields (`ofJson?_layout_of_fields`).
The caps of an escrow that is opened are the only field that is not optional and still may be
left out, which is why a layout has to know what the object is that it is a layout of.

A text is an arrangement of a value if it spells out a layout of it, with blanks anywhere
between the tokens.
-/
import DelegatedEscrow.Proofs.Json.RoundTrip
import DelegatedEscrow.Proofs.Json.Tolerance

namespace DelegatedEscrow

open Json JsonForm

-- Which fields have to be there is seen from their names.
attribute [local simp] Omissible optionKeys capsKey

/-! ### Instructions -/

namespace Instruction

variable {depth : ℕ} {i : Instruction} {lost : Bool} {opens : Prop} {name : String}
variable {names : List String} {values : List Json} {left : List (Option Json)}
variable {w : Json} {f : Option Json}

theorem authority?_layout {a : Authority} (needed : ¬ Omissible opens name)
    (h : Member opens lost (some name) (toJson a) f) :
    authority? depth f = unlessLost lost (some a) := by
  cases h with
  | kept h =>
    -- A text is not changed when it is held as a tree.
    cases h
    exact authority?_toJson a
  | spare h => exact absurd h.omissible needed
  | gone _ => rfl

/-- Caps that are left out are unlimited. -/
theorem caps?_layout {c : LifetimeCaps} (opening : opens)
    (h : Member opens lost (some capsKey) (toJson c) f) :
    caps? depth f = unlessLost lost (some c) := by
  cases h with
  | kept h => exact ofJson?_layout (depth + 1) c h
  | spare h =>
    rcases h with ⟨optional, -⟩ | ⟨-, -, unlimited⟩
    · exact absurd optional capsKey_not_mem_optionKeys
    · have same := ofJson?_toJson depth c
      rw [unlimited, ofJson?_toJson] at same
      exact same
  | gone h => exact absurd (.inr ⟨rfl, opening⟩) h

/-- The tag of an instruction is found wherever it stands. -/
theorem split?_layout {members : List (Key × Json)} (found : member? members tagKey = some f)
    (h : Member opens lost (some tagKey) (text name) f) :
    split? (.object members) = unlessLost lost (some (name, .object members)) := by
  have needed : ¬ Omissible True tagKey := by decide
  rw [split?, found]
  cases h with
  | kept h =>
    cases h
    rfl
  | spare h => exact absurd h.omissible (not_omissible needed)
  | gone _ => rfl

/-- An instruction is read as its fields are, unless its tag has been lost. -/
theorem ofJson?_layout_of_fields (names : List String) (values : List Json)
    (same : i.fields = names.zip values) (distinct : (tagKey :: names).Nodup)
    (length : names.length = values.length) (room : depth + 3 ≤ maxDepth)
    (reads : ∀ opens lost members left, (i.name = "initialize" → opens) →
      Finds members names left → Fields opens lost names values left →
      ofFields? depth i.name (.object members) = unlessLost lost (some i))
    (h : Layout lost (toJson i) w) : ofJson? depth w = unlessLost lost (some i) := by
  rw [ofJson?_of_fits (h.fits (fits_toJson i)) room]
  have written : toJson i = record ((tagKey :: names).zip (text i.name :: values)) := by
    rw [← tag_eq_name]
    exact congrArg (fun fields => record ((tagKey, text i.tag) :: fields)) same
  have lengths : (tagKey :: names).length = (text i.name :: values).length :=
    congrArg Nat.succ length
  rw [written] at h
  obtain ⟨members, left, rfl, found, fields⟩ := h.record distinct lengths
  -- The tag is looked up like a field, so it need not come first.
  rcases fields with _ | ⟨tagged, fields⟩
  have opening : i.name = "initialize" →
      Opens (keyed ((tagKey :: names).zip (text i.name :: values))) := by
    intro e
    rw [e]
    exact List.mem_cons_self
  have read := reads _ _ members _ opening found.tail fields
  rw [split?_layout found.head tagged, unlessLost_bind, Option.bind_some, read,
    unlessLost_unlessLost]

theorem ofEscrow?_layout {escrow : Identity} {action : Action} {members : List (Key × Json)}
    (found : Finds members ["escrow"] left)
    (fields : Fields opens lost ["escrow"] [toJson escrow] left) :
    ofEscrow? depth (.object members) action = unlessLost lost (some (act escrow action)) := by
  rcases fields with _ | ⟨escrow, ⟨⟩⟩
  apply (found.bind 0 _).trans
  simp [escrow.required? depth]

theorem ofAmount?_layout {escrow : Identity} {action : Amount → Action} {amount : Amount}
    {members : List (Key × Json)} (found : Finds members ["escrow", "amount"] left)
    (fields : Fields opens lost ["escrow", "amount"] [toJson escrow, toJson amount] left) :
    ofAmount? depth (.object members) action =
      unlessLost lost (some (act escrow (action amount))) := by
  rcases fields with _ | ⟨escrow, _ | ⟨amount, ⟨⟩⟩⟩
  apply (found.bind 0 _).trans
  simp [escrow.required? depth, amount.required? depth]

/-- An instruction is read from every layout, wherever there is room for its three levels. -/
theorem ofJson?_layout_of_room (room : depth + 3 ≤ maxDepth) (h : Layout lost (toJson i) w) :
    ofJson? depth w = unlessLost lost (some i) := by
  cases i with
  | create mint ceiling caps =>
    apply ofJson?_layout_of_fields ["token_mint", "max_balance", "lifetime_limits"]
      [toJson mint, toJson ceiling, toJson caps] rfl (by decide) rfl room _ h
    intro opens lost members left opening found fields
    rcases fields with _ | ⟨mint, _ | ⟨ceiling, _ | ⟨caps, ⟨⟩⟩⟩⟩
    apply (found.bind 1 _).trans
    simp [mint.required? depth, ceiling.required? depth, caps?_layout (opening rfl) caps]
  | act escrow action =>
    cases action with
    | deposit amount | withdraw amount | emergencyWithdraw amount =>
      exact ofJson?_layout_of_fields ["escrow", "amount"] [toJson escrow, toJson amount]
        rfl (by decide) rfl room (fun _ _ _ _ _ => ofAmount?_layout) h
    | collectFee amount nonce =>
      apply ofJson?_layout_of_fields ["escrow", "amount", "nonce"]
        [toJson escrow, toJson amount, toJson nonce] rfl (by decide) rfl room _ h
      intro opens lost members left _ found fields
      rcases fields with _ | ⟨escrow, _ | ⟨amount, _ | ⟨nonce, ⟨⟩⟩⟩⟩
      apply (found.bind 0 _).trans
      simp [escrow.required? depth, amount.required? depth, nonce.required? depth]
    | trade amount nonce deadline =>
      apply ofJson?_layout_of_fields ["escrow", "amount", "nonce", "deadline"]
        [toJson escrow, toJson amount, toJson nonce, toJson deadline]
        rfl (by decide) rfl room _ h
      intro opens lost members left _ found fields
      rcases fields with _ | ⟨escrow, _ | ⟨amount, _ | ⟨nonce, _ | ⟨deadline, ⟨⟩⟩⟩⟩⟩
      apply (found.bind 0 _).trans
      simp [escrow.required? depth, amount.required? depth, nonce.required? depth,
        deadline.required? depth]
    | delegate a d =>
      apply ofJson?_layout_of_fields ["escrow", "kind", "authority"]
        [toJson escrow, toJson a, toJson d] rfl (by decide) rfl room _ h
      intro opens lost members left _ found fields
      rcases fields with _ | ⟨escrow, _ | ⟨kind, _ | ⟨authority, ⟨⟩⟩⟩⟩
      apply (found.bind 0 _).trans
      simp [escrow.required? depth, authority?_layout (by simp) kind, authority.required? depth]
    | revoke a =>
      apply ofJson?_layout_of_fields ["escrow", "kind"] [toJson escrow, toJson a]
        rfl (by decide) rfl room _ h
      intro opens lost members left _ found fields
      rcases fields with _ | ⟨escrow, _ | ⟨kind, ⟨⟩⟩⟩
      apply (found.bind 0 _).trans
      simp [escrow.required? depth, authority?_layout (by simp) kind]
    | setLifetime secs =>
      apply ofJson?_layout_of_fields ["escrow", "secs"] [toJson escrow, toJson secs]
        rfl (by decide) rfl room _ h
      intro opens lost members left _ found fields
      rcases fields with _ | ⟨escrow, _ | ⟨secs, ⟨⟩⟩⟩
      apply (found.bind 0 _).trans
      simp [escrow.required? depth, secs.required? depth]
    | pause | unpause | close =>
      exact ofJson?_layout_of_fields ["escrow"] [toJson escrow] rfl (by decide) rfl room
        (fun _ _ _ _ _ => ofEscrow?_layout) h

end Instruction

theorem Signed.ofJson?_layout_of_room {depth : ℕ} {s : Signed} {lost : Bool} {w : Json}
    (room : depth + 4 ≤ Instruction.maxDepth) (h : Layout lost (toJson s) w) :
    ofJson? depth w = unlessLost lost (some s) := by
  obtain ⟨members, left, rfl, found, fields⟩ :=
    Layout.record_of_unnamed ["signer", "instruction"] [toJson s.signer, toJson s.instruction]
      (by decide) rfl h
  rcases fields with _ | ⟨signer, _ | ⟨instruction, ⟨⟩⟩⟩
  have signed := instruction.required?_of (by decide) fun w =>
    Instruction.ofJson?_layout_of_room (by omega : depth + 1 + 3 ≤ Instruction.maxDepth)
  apply (found.bind 0 _).trans
  simp [signer.required? depth, signed]

/-! ### Texts -/

section
variable {α : Type} [JsonForm α]

/-- The text is one that a submitter may have for the value, perhaps with members missing
that are needed. -/
def Arranges (lost : Bool) (a : α) (s : String) : Prop :=
  ∃ w, Layout lost (toJson a) w ∧ Token.Spread w.tokens s.toList

/-- A format that does not depend on how a value is laid out.  The text that is written for
a value is one of its arrangements.  Each of them is read as the value, and none of those
in which a member is missing that is needed can be read. -/
structure Indifferent (α : Type) [JsonForm α] : Prop where
  arranges_encode (a : α) : Arranges false a (encode a)
  decode?_of_arranges (a : α) (s : String) (h : Arranges false a s) : decode? α s = some a
  decode?_of_lost (a : α) (s : String) (h : Arranges true a s) : decode? α s = none

/-- A format is indifferent to the layout of texts if it is to the layout of trees. -/
theorem Indifferent.of_layout
    (reads : ∀ {a : α} {lost w}, Layout lost (toJson a) w →
      ofJson? 0 w = unlessLost lost (some a)) : Indifferent α := by
  have decoded {lost : Bool} {a : α} {s : String} (h : Arranges lost a s) :
      decode? α s = unlessLost lost (some a) := by
    obtain ⟨w, layout, spread⟩ := h
    rw [decode?, ofText?_spread spread, Option.bind_some, reads layout]
  exact ⟨fun a => ⟨_, .refl (toJson a), spread_render (toJson a)⟩, fun _ _ => decoded,
    fun _ _ => decoded⟩

theorem indifferent [TolerantForm α] : Indifferent α := .of_layout (ofJson?_layout 0 _)

/-- Caps are read without the one that is not set, and with blanks. -/
example : decode? LifetimeCaps " \x7b \"traded\" : 5 \x7d\n" = some ⟨none, some ⟨5⟩⟩ := by
  decide

end

/-- **Layout is free.**  Signed instructions, records of escrows, limits, events and receipts
are read alike from all arrangements of their texts: with the members of any object in any
order, the tag of an instruction among them; with any blanks between the tokens; and without
members that hold no option, or caps of a new escrow that are unlimited.  If any other member
is missing anywhere, then the text is refused, however the rest of it is arranged. -/
theorem layout_is_free :
    Indifferent Signed ∧ Indifferent Account ∧ Indifferent Limits ∧ Indifferent Event ∧
      Indifferent Receipt := by
  refine ⟨?_, indifferent, indifferent, indifferent, indifferent⟩
  -- In a document there is room for the levels of an instruction.
  have room : 0 + 4 ≤ Instruction.maxDepth := by decide
  exact .of_layout (Signed.ofJson?_layout_of_room room)

end DelegatedEscrow
