/-
DelegatedEscrow/Proofs/Json/RoundTrip.lean

Nothing is lost in writing.

Instructions are read in two passes: the first holds the whole instruction as a tree and
looks for its tag, the second picks the fields that an instruction of this tag has.  A tag
is no other than the name of the instruction (`tag_eq_name`).  So an instruction is read
back for three reasons.  The tree that is written for it is one that the reader can hold
(`fits_toJson`); its name is found among its members (`split?_toJson`); and its fields are
found among the same members, the tag being just one more that nobody asks for
(`ofFields?_toJson`).

Then no format of the library loses anything (`format_lossless`).  Since a reader takes more
than what is written, there are many texts for a value; the one that is written stands for
all of them, as it has the same value and is written as itself.
-/
import DelegatedEscrow.Json.Form.Instruction
import DelegatedEscrow.Proofs.Json.Document
import DelegatedEscrow.Proofs.Json.Forms
import DelegatedEscrow.Proofs.Json.Plain

namespace DelegatedEscrow

open Json JsonForm

/-! ### What is written can be held -/

section
variable {n : Nat}

theorem fits_byte (b : UInt8) : (toJson b).Fits n := by
  have range : b.toNat < UInt8.size := b.toNat_lt
  have room : UInt8.size ≤ UInt64.size := by decide
  apply fits_int
  omega

theorem fits_word (w : UInt64) : (toJson w).Fits n := by
  have range : w.toNat < UInt64.size := w.toNat_lt
  apply fits_int
  omega

theorem fits_span (s : Seconds) : (toJson s).Fits n := by
  have low := Int64.le_toInt s
  have high := Int64.toInt_lt s
  have room : (2 : Int) ^ 63 < UInt64.size := by decide
  apply fits_int
  omega

theorem fits_identity (i : Identity) : (toJson i).Fits (n + 1) := by
  apply fits_array_iff.2
  intro v hv
  obtain ⟨b, -, rfl⟩ := List.mem_map.1 hv
  exact fits_byte b

theorem fits_mint (m : Mint) : (toJson m).Fits (n + 2) := by
  apply fits_record
  simp only [List.forall_mem_cons]
  exact ⟨fits_identity m.id, fits_byte m.decimals, nofun⟩

theorem fits_cap (cap : Option Amount) : (toJson cap).Fits n := by
  cases cap with
  | none => exact fits_null
  | some a => exact fits_word a.units

theorem fits_caps (c : LifetimeCaps) : (toJson c).Fits (n + 1) := by
  apply fits_record
  simp only [List.forall_mem_cons]
  exact ⟨fits_cap c.deposits, fits_cap c.traded, nofun⟩

end

namespace Instruction

variable {depth : Nat} {i : Instruction}

theorem fits_actionFields (a : Action) : ∀ m ∈ actionFields a, m.2.Fits 2 := by
  cases a with
  | deposit amount | withdraw amount | emergencyWithdraw amount =>
    simp only [actionFields, List.forall_mem_cons]
    exact ⟨fits_word amount.units, nofun⟩
  | collectFee amount nonce =>
    simp only [actionFields, List.forall_mem_cons]
    exact ⟨fits_word amount.units, fits_word nonce, nofun⟩
  | trade amount nonce deadline =>
    simp only [actionFields, List.forall_mem_cons]
    exact ⟨fits_word amount.units, fits_word nonce, fits_span deadline.secs, nofun⟩
  | delegate a d =>
    simp only [actionFields, List.forall_mem_cons]
    exact ⟨fits_text a.label, fits_identity d, nofun⟩
  | revoke a =>
    simp only [actionFields, List.forall_mem_cons]
    exact ⟨fits_text a.label, nofun⟩
  | setLifetime secs =>
    simp only [actionFields, List.forall_mem_cons]
    exact ⟨fits_span secs, nofun⟩
  | pause | unpause | close => exact nofun

theorem fits_fields (i : Instruction) : ∀ m ∈ i.fields, m.2.Fits 2 := by
  cases i with
  | create mint ceiling caps =>
    simp only [fields, List.forall_mem_cons]
    exact ⟨fits_mint mint, fits_word ceiling.units, fits_caps caps, nofun⟩
  | act escrow action =>
    rw [fields, List.forall_mem_cons]
    exact ⟨fits_identity escrow, fits_actionFields action⟩

/-- No instruction is nested deeper than three levels. -/
theorem fits_toJson (i : Instruction) : (toJson i).Fits 3 := by
  apply fits_record
  rw [List.forall_mem_cons]
  exact ⟨fits_text i.tag, fits_fields i⟩

/-! ### Names and fields are found -/

/-- Small letters make the name of an instruction out of the one it is declared with. -/
theorem tag_eq_name (i : Instruction) : i.tag = i.name := by
  cases i with
  | create mint ceiling caps => simp [tag, declaredName, snakeCase, name]
  | act escrow action => cases action <;> simp [tag, declaredName, snakeCase, name, Action.name]

theorem distinct_keys (i : Instruction) :
    (((tagKey, text i.tag) :: i.fields).map Prod.fst).Nodup := by
  cases i with
  | create mint ceiling caps => simp [fields, tagKey]
  | act escrow action => cases action <;> simp [fields, actionFields, tagKey]

theorem member?_tag (i : Instruction) :
    member? (((tagKey, text i.tag) :: i.fields).map fun (k, v) => (some k, v)) tagKey =
      some (some (text i.name)) := by
  rw [member?_of_mem (distinct_keys i) List.mem_cons_self, tag_eq_name]

theorem split?_toJson (i : Instruction) : split? (toJson i) = some (i.name, toJson i) := by
  show split? (object (((tagKey, text i.tag) :: i.fields).map fun (k, v) => (some k, v))) = _
  rw [split?, member?_tag]
  rfl

/-- The fields of an instruction are found beside its tag. -/
theorem fieldsUpTo?_bind {α : Type} (omissible : Nat) (names : List String)
    (values : List Json) (same : i.fields = names.zip values)
    (length : names.length = values.length) (next : List (Option Json) → Option α) :
    ((toJson i).fieldsUpTo? omissible names >>= next) = next (values.map some) := by
  have found : (toJson i).fieldsUpTo? omissible names = some (values.map some) := by
    apply fieldsUpTo?_record (distinct_keys i) _ length
    rw [← same]
    exact List.subset_cons_self _ _
  rw [found]
  rfl

theorem authority?_toJson (a : Authority) : authority? depth (some (toJson a)) = some a :=
  required?_toJson depth a

theorem caps?_toJson (c : LifetimeCaps) : caps? depth (some (toJson c)) = some c :=
  ofJson?_toJson (depth + 1) c

theorem ofEscrow?_toJson {escrow : Identity} {action : Action}
    (alone : actionFields action = []) :
    ofEscrow? depth (toJson (act escrow action)) action = some (act escrow action) := by
  have same : (act escrow action).fields = ["escrow"].zip [toJson escrow] := by
    rw [fields, alone]
    rfl
  apply (fieldsUpTo?_bind 0 _ _ same rfl _).trans
  simp

theorem ofAmount?_toJson {escrow : Identity} {action : Amount → Action} {amount : Amount}
    (alone : actionFields (action amount) = [("amount", toJson amount)]) :
    ofAmount? depth (toJson (act escrow (action amount))) action =
      some (act escrow (action amount)) := by
  have same : (act escrow (action amount)).fields =
      ["escrow", "amount"].zip [toJson escrow, toJson amount] := by
    rw [fields, alone]
    rfl
  apply (fieldsUpTo?_bind 0 _ _ same rfl _).trans
  simp

/-- Whatever its name, an instruction is put together from the fields it was written
with. -/
theorem ofFields?_toJson (depth : Nat) (i : Instruction) :
    ofFields? depth i.name (toJson i) = some i := by
  -- The name says which fields are looked for, and they are the ones that were written.
  cases i with
  | create mint ceiling caps =>
    apply (fieldsUpTo?_bind 1 ["token_mint", "max_balance", "lifetime_limits"]
      [toJson mint, toJson ceiling, toJson caps] rfl rfl _).trans
    simp [caps?_toJson]
  | act escrow action =>
    cases action with
    | deposit amount => exact ofAmount?_toJson rfl
    | withdraw amount => exact ofAmount?_toJson rfl
    | emergencyWithdraw amount => exact ofAmount?_toJson rfl
    | collectFee amount nonce =>
      apply (fieldsUpTo?_bind 0 ["escrow", "amount", "nonce"]
        [toJson escrow, toJson amount, toJson nonce] rfl rfl _).trans
      simp
    | trade amount nonce deadline =>
      apply (fieldsUpTo?_bind 0 ["escrow", "amount", "nonce", "deadline"]
        [toJson escrow, toJson amount, toJson nonce, toJson deadline] rfl rfl _).trans
      simp
    | delegate a d =>
      apply (fieldsUpTo?_bind 0 ["escrow", "kind", "authority"]
        [toJson escrow, toJson a, toJson d] rfl rfl _).trans
      simp [authority?_toJson]
    | revoke a =>
      apply (fieldsUpTo?_bind 0 ["escrow", "kind"] [toJson escrow, toJson a] rfl rfl _).trans
      simp [authority?_toJson]
    | setLifetime secs =>
      apply (fieldsUpTo?_bind 0 ["escrow", "secs"] [toJson escrow, toJson secs] rfl rfl _).trans
      simp
    | pause => exact ofEscrow?_toJson rfl
    | unpause => exact ofEscrow?_toJson rfl
    | close => exact ofEscrow?_toJson rfl

/-- A tree that can be held is read in two passes. -/
theorem ofJson?_of_fits {v : Json} (fits : v.Fits 3) (room : depth + 3 ≤ maxDepth) :
    ofJson? depth v = (split? v).bind fun p => ofFields? depth p.1 p.2 := by
  obtain ⟨plain, levels⟩ := fits
  have held : ¬ ¬ (v.plain ∧ v.depth + depth ≤ maxDepth) := not_not_intro ⟨plain, by omega⟩
  show (do
    if ¬ (v.plain ∧ v.depth + depth ≤ maxDepth) then none
    let (tag, fields) ← split? v
    ofFields? depth tag fields) = _
  rw [if_neg held]
  rfl

/-- An instruction is read back wherever there is room for its three levels. -/
theorem ofJson?_toJson_of_room (room : depth + 3 ≤ maxDepth) (i : Instruction) :
    ofJson? depth (toJson i) = some i := by
  rw [ofJson?_of_fits (fits_toJson i) room, split?_toJson]
  exact ofFields?_toJson depth i

end Instruction

theorem Signed.ofJson?_toJson_of_room {depth : Nat} (room : depth + 4 ≤ Instruction.maxDepth)
    (s : Signed) : ofJson? depth (toJson s) = some s := by
  have signed : required? depth (some (toJson s.instruction)) = some s.instruction :=
    Instruction.ofJson?_toJson_of_room (by omega) s.instruction
  apply (fields?_zip_bind ["signer", "instruction"] [toJson s.signer, toJson s.instruction]
    (by decide) rfl _).trans
  simp [signed]

/-! ### Texts -/

/-- A format without loss.  Every value is read back from its text, and the text that is
written for a value stands for all texts that have it. -/
structure Lossless (α : Type) [JsonForm α] : Prop where
  decode?_encode (a : α) : decode? α (encode a) = some a
  normal (s : String) (a : α) (read : decode? α s = some a) :
    decode? α (encode a) = decode? α s ∧ (decode? α (encode a)).map encode = some (encode a)

/-- A format loses nothing on the way through text if it loses nothing on the way through
trees. -/
theorem Lossless.of_toJson {α : Type} [JsonForm α] (h : ∀ a : α, ofJson? 0 (toJson a) = some a) :
    Lossless α := by
  have back (a : α) : decode? α (encode a) = some a := by
    rw [decode?, encode, ofText?_render, Option.bind_some, h]
  refine ⟨back, ?_⟩
  intro s a read
  -- Whatever the first text was, all that is left of it is the value.
  rw [back, read]
  exact ⟨rfl, rfl⟩

theorem lossless {α : Type} [JsonForm α] [LawfulForm α] : Lossless α :=
  .of_toJson (ofJson?_toJson 0)

theorem lossless_signed : Lossless Signed :=
  .of_toJson (Signed.ofJson?_toJson_of_room (by decide))

theorem lossless_batch : Lossless (List Signed) :=
  .of_toJson fun _ => ofJson?_toJson_list fun s _ => s.ofJson?_toJson_of_room (by decide)

/-- **Nothing is lost in writing.**  Instructions, alone, signed and in batches, records of
escrows and their slots, events, receipts, limits, holders, tokens, keys, amounts and clock
readings are read back from their texts.  The member `op` of a written instruction is its
name.  A batch that went through its text is carried out as if it had not. -/
theorem format_lossless :
    (Lossless Instruction ∧ Lossless Signed ∧ Lossless (List Signed) ∧ Lossless Account ∧
      Lossless Slot ∧ Lossless Event ∧ Lossless Receipt ∧ Lossless Limits ∧ Lossless Holder ∧
      Lossless Mint ∧ Lossless Identity ∧ Lossless Amount ∧ Lossless Timestamp) ∧
    (∀ i : Instruction, ∃ members, ofText? (encode i) = some (.object members) ∧
      member? members "op" = some (some (text i.name))) ∧
    (∀ (l : Ledger) (batch : List Signed),
      (decode? (List Signed) (encode batch)).map l.submitAll = some (l.submitAll batch)) := by
  refine ⟨⟨?_, lossless_signed, lossless_batch, lossless, lossless, lossless, lossless, lossless,
    lossless, lossless, lossless, lossless, lossless⟩, ?_, ?_⟩
  · exact .of_toJson (Instruction.ofJson?_toJson_of_room (by decide))
  · intro i
    exact ⟨_, ofText?_render (toJson i), Instruction.member?_tag i⟩
  · intro l batch
    rw [lossless_batch.decode?_encode, Option.map_some]

end DelegatedEscrow
