/-
DelegatedEscrow/Proofs/Json/Tolerance.lean

Readers that do not mind how a value is laid out.

`TolerantForm` says of a form that it reads every layout of what it writes as the same value,
unless something that is needed has been lost, and then refuses it.  Both are one equation,

    ofJson? depth w = unlessLost lost (some a),

and such equations compose as the reader does: something has been lost of a record if it has
been lost of one of its fields.  Each field is read according to its kind, as one that has to
be there (`Member.required?`) or as an optional one (`Member.optional?`).
-/
import DelegatedEscrow.Proofs.Json.Forms
import DelegatedEscrow.Proofs.Json.Layout

namespace DelegatedEscrow

open Json JsonForm

/-! ### What is read where something may be lost -/

section
variable {α β : Type} {lost b c : Bool} {x : Option α}

/-- A result, unless something has been lost. -/
def unlessLost (lost : Bool) (x : Option α) : Option α := if lost then none else x

@[simp] theorem unlessLost_bind (f : α → Option β) :
    (unlessLost lost x).bind f = unlessLost lost (x.bind f) := by
  cases lost <;> rfl

@[simp] theorem unlessLost_unlessLost :
    unlessLost b (unlessLost c x) = unlessLost (b || c) x := by
  cases b <;> rfl

end

/-- A form that reads every layout of what it writes, unless something that is needed has
been lost, and then refuses it. -/
class TolerantForm (α : Type) [JsonForm α] : Prop extends LawfulForm α where
  ofJson?_layout (depth : ℕ) (a : α) {lost : Bool} {w : Json} (h : Layout lost (toJson a) w) :
    ofJson? depth w = unlessLost lost (some a)

export TolerantForm (ofJson?_layout)

/-! ### Fields -/

namespace Json

variable {α : Type} [JsonForm α] {lost : Bool} {opens : Prop} {name : String}
variable {f : Option Json} {a : α} {depth : ℕ}

theorem Member.required?_of (needed : ¬ Omissible opens name)
    (reads : ∀ w, Layout lost (toJson a) w → ofJson? (depth + 1) w = unlessLost lost (some a))
    (h : Member opens lost (some name) (toJson a) f) :
    required? depth f = unlessLost lost (some a) := by
  cases h with
  | kept h => exact reads _ h
  | spare h => exact absurd h.omissible needed
  | gone _ => rfl

/-- A field that has to be there. -/
theorem Member.required? [TolerantForm α] (depth : ℕ) (needed : ¬ Omissible opens name)
    (h : Member opens lost (some name) (toJson a) f) :
    required? depth f = unlessLost lost (some a) :=
  h.required?_of needed fun _ => ofJson?_layout (depth + 1) a

/-- A field that counts as null when it is missing. -/
theorem Member.optional? [TolerantForm α] (depth : ℕ) (optional : name ∈ optionKeys)
    (h : Member opens lost (some name) (toJson a) f) :
    optional? depth f = unlessLost lost (some a) := by
  cases h with
  | kept h => exact ofJson?_layout (depth + 1) a h
  | spare h =>
    rcases h with ⟨-, isNull⟩ | ⟨caps, -⟩
    · have same := ofJson?_toJson (depth + 1) a
      rwa [isNull] at same
    · exact absurd (caps ▸ optional) capsKey_not_mem_optionKeys
  | gone h => exact absurd (.inl optional) h

end Json

/-! ### Scalars and lists -/

/-- There is nothing to lay out in a scalar. -/
theorem TolerantForm.of_scalar {α : Type} [JsonForm α] [LawfulForm α]
    (flat : ∀ a : α, ∃ s, toJson a = .scalar s) : TolerantForm α where
  ofJson?_layout depth a lost w h := by
    obtain ⟨s, e⟩ := flat a
    have same := ofJson?_toJson depth a
    rw [e] at h same
    cases h
    exact same

instance : TolerantForm UInt8 := .of_scalar fun _ => ⟨_, rfl⟩

instance : TolerantForm UInt64 := .of_scalar fun _ => ⟨_, rfl⟩

instance : TolerantForm Int64 := .of_scalar fun _ => ⟨_, rfl⟩

instance : TolerantForm Amount := .of_scalar fun _ => ⟨_, rfl⟩

instance : TolerantForm Timestamp := .of_scalar fun _ => ⟨_, rfl⟩

instance : TolerantForm Authority := .of_scalar fun _ => ⟨_, rfl⟩

instance : TolerantForm Status := .of_scalar fun _ => ⟨_, rfl⟩

instance : TolerantForm (Option Amount) := .of_scalar fun o => by cases o <;> exact ⟨_, rfl⟩

instance : TolerantForm (Option Seconds) := .of_scalar fun o => by cases o <;> exact ⟨_, rfl⟩

instance : TolerantForm (Option Timestamp) := .of_scalar fun o => by cases o <;> exact ⟨_, rfl⟩

theorem Json.Items.mapM_ofJson? {α : Type} [JsonForm α] [TolerantForm α] {depth : ℕ}
    {as : List α} {lost : Bool} {ws : List Json} (h : Items lost (as.map toJson) ws) :
    ws.mapM (ofJson? depth) = unlessLost lost (some as) := by
  induction as generalizing lost ws with
  | nil =>
    cases h
    rfl
  | cons a as ih =>
    rcases h with _ | ⟨here, rest⟩
    simp [List.mapM_cons, ofJson?_layout depth a here, ih rest]

instance {α : Type} [JsonForm α] [TolerantForm α] : TolerantForm (List α) where
  ofJson?_layout depth as lost w h := by
    cases h with
    | array items => exact items.mapM_ofJson?

instance : TolerantForm Identity where
  ofJson?_layout depth i lost w h := by
    show (ofJson? depth w).bind Identity.ofBytes? = _
    rw [ofJson?_layout depth i.bytes h, unlessLost_bind, Option.bind_some, Identity.ofBytes?_bytes]

/-! ### Records -/

-- Which fields have to be there is seen from their names.
attribute [local simp] Omissible optionKeys capsKey

instance : TolerantForm Mint where
  ofJson?_layout depth m lost w h := by
    obtain ⟨members, left, rfl, found, fields⟩ :=
      Layout.record_of_unnamed ["id", "decimals"] [toJson m.id, toJson m.decimals]
        (by decide) rfl h
    rcases fields with _ | ⟨id, _ | ⟨decimals, ⟨⟩⟩⟩
    apply (found.bind 0 _).trans
    simp [id.required? depth, decimals.required? depth]

instance : TolerantForm LifetimeCaps where
  ofJson?_layout depth c lost w h := by
    obtain ⟨members, left, rfl, found, fields⟩ :=
      Layout.record_of_unnamed ["deposits", "traded"] [toJson c.deposits, toJson c.traded]
        (by decide) rfl h
    rcases fields with _ | ⟨deposits, _ | ⟨traded, ⟨⟩⟩⟩
    apply (found.bind 0 _).trans
    simp [deposits.optional? depth (by decide), traded.optional? depth (by decide)]

instance : TolerantForm BalanceChange where
  ofJson?_layout depth c lost w h := by
    obtain ⟨members, left, rfl, found, fields⟩ :=
      Layout.record_of_unnamed ["amount", "new_balance", "counterparty"]
        [toJson c.amount, toJson c.newBalance, toJson c.counterparty] (by decide) rfl h
    rcases fields with _ | ⟨amount, _ | ⟨newBalance, _ | ⟨counterparty, ⟨⟩⟩⟩⟩
    apply (found.bind 0 _).trans
    simp [amount.required? depth, newBalance.required? depth, counterparty.required? depth]

instance : TolerantForm Receipt where
  ofJson?_layout depth r lost w h := by
    obtain ⟨members, left, rfl, found, fields⟩ :=
      Layout.record_of_unnamed ["event_id", "escrow", "balance", "action_nonce"]
        [toJson r.eventId, toJson r.escrow, toJson r.balance, toJson r.nonce]
        (by decide) rfl h
    rcases fields with _ | ⟨eventId, _ | ⟨escrow, _ | ⟨balance, _ | ⟨nonce, ⟨⟩⟩⟩⟩⟩
    apply (found.bind 0 _).trans
    simp [eventId.required? depth, escrow.required? depth, balance.required? depth,
      nonce.required? depth]

instance : TolerantForm Limits where
  ofJson?_layout depth l lost w h := by
    obtain ⟨members, left, rfl, found, fields⟩ :=
      Layout.record_of_unnamed Limits.fieldNames _ (by decide) rfl h
    rcases fields with _ | ⟨lockAge, _ | ⟨cooldown, _ | ⟨skew, _ | ⟨feeCap, _ | ⟨tradeCap, _ |
      ⟨defaultCeiling, _ | ⟨hardCeiling, _ | ⟨dust, _ | ⟨minDecimals, _ | ⟨maxDecimals,
        ⟨⟩⟩⟩⟩⟩⟩⟩⟩⟩⟩⟩
    apply (found.bind 0 _).trans
    simp [lockAge.required? depth, cooldown.required? depth, skew.required? depth,
      feeCap.required? depth, tradeCap.required? depth, defaultCeiling.required? depth,
      hardCeiling.required? depth, dust.required? depth, minDecimals.required? depth,
      maxDecimals.required? depth]

/-! ### Variants -/

instance : TolerantForm Slot where
  ofJson?_layout depth s lost w h := by
    cases s with
    | empty =>
      cases h
      rfl
    | delegated d t =>
      rcases Layout.tagged (by decide) h with ⟨data, rfl, inner⟩ | ⟨rfl, rfl⟩
      · obtain ⟨members, left, rfl, found, fields⟩ :=
          Layout.record_of_unnamed ["authority", "activated_at"] [toJson d, toJson t]
            (by decide) rfl inner
        rcases fields with _ | ⟨authority, _ | ⟨activatedAt, ⟨⟩⟩⟩
        apply (found.bind 0 _).trans
        simp [authority.required? (depth + 1), activatedAt.required? (depth + 1)]
      · rfl

instance : TolerantForm Account where
  ofJson?_layout depth a lost w h := by
    obtain ⟨members, left, rfl, found, fields⟩ :=
      Layout.record_of_unnamed Account.fieldNames _ (by decide) rfl h
    rcases fields with _ | ⟨owner, _ | ⟨mint, _ | ⟨platform, _ | ⟨trading, _ | ⟨status, _ |
      ⟨balance, _ | ⟨ceiling, _ | ⟨caps, _ | ⟨lifetime, _ | ⟨createdAt, _ | ⟨pausedAt, _ |
        ⟨nonce, _ | ⟨deposited, _ | ⟨withdrawn, _ | ⟨fees, _ | ⟨traded,
          ⟨⟩⟩⟩⟩⟩⟩⟩⟩⟩⟩⟩⟩⟩⟩⟩⟩⟩
    apply (found.bind 0 _).trans
    simp [owner.required? depth, mint.required? depth, platform.required? depth,
      trading.required? depth, status.required? depth, balance.required? depth,
      ceiling.required? depth, caps.required? depth, lifetime.optional? depth (by decide),
      createdAt.required? depth, pausedAt.optional? depth (by decide), nonce.required? depth,
      deposited.required? depth, withdrawn.required? depth, fees.required? depth,
      traded.required? depth]

namespace Payload

variable {depth : ℕ} {tag : String} {data w : Json} {lost : Bool} {p : Payload}

/-- A variant with data is read as its data is. -/
theorem ofJson?_layout_tagged
    (other : ¬ Omissible True tag ∧ tag ≠ "Paused" ∧ tag ≠ "Unpaused")
    (reads : ∀ lost data', Layout lost data data' →
      ofTagged? (depth + 1) tag data' = unlessLost lost (some p))
    (h : Layout lost (tagged tag data) w) : ofJson? depth w = unlessLost lost (some p) := by
  obtain ⟨needed, paused, unpaused⟩ := other
  rcases h.tagged needed with ⟨data', rfl, inner⟩ | ⟨rfl, rfl⟩
  · rw [ofJson?_tagged paused unpaused]
    exact reads _ _ inner
  · -- An object without members is no variant.
    rfl

/-- A variant with fields is read as they are. -/
theorem ofJson?_layout_of_fields
    (other : ¬ Omissible True tag ∧ tag ≠ "Paused" ∧ tag ≠ "Unpaused")
    (names : List String) (values : List Json) (distinct : (Instruction.tagKey :: names).Nodup)
    (length : names.length = values.length)
    (reads : ∀ lost members left, Finds members names left →
      Fields False lost names values left →
      ofTagged? (depth + 1) tag (.object members) = unlessLost lost (some p))
    (h : Layout lost (tagged tag (record (names.zip values))) w) :
    ofJson? depth w = unlessLost lost (some p) := by
  apply ofJson?_layout_tagged other _ h
  intro lost data h
  obtain ⟨members, left, rfl, found, fields⟩ :=
    Layout.record_of_unnamed names values distinct length h
  exact reads lost members left found fields

theorem ofTagged?_flow_layout {flow : Flow} {change : BalanceChange}
    (h : Layout lost (toJson change) w) :
    ofTagged? depth flow.tag w = unlessLost lost (some (.funds flow change)) := by
  have read := ofJson?_layout depth change h
  cases flow <;> simp [ofTagged?, Flow.tag, Flow.all, read]

instance : TolerantForm Payload where
  ofJson?_layout depth p lost w h := by
    cases p with
    | paused | unpaused =>
      cases h
      rfl
    | opened mint ceiling =>
      apply ofJson?_layout_of_fields (by decide) ["token_mint", "max_balance"]
        [toJson mint, toJson ceiling] (by decide) rfl _ h
      intro lost members left found fields
      rcases fields with _ | ⟨mint, _ | ⟨ceiling, ⟨⟩⟩⟩
      apply (found.bind 0 _).trans
      simp [mint.required? (depth + 1), ceiling.required? (depth + 1)]
    | lifetimeSet secs =>
      apply ofJson?_layout_of_fields (by decide) ["max_lifetime_secs"] [toJson secs]
        (by decide) rfl _ h
      intro lost members left found fields
      rcases fields with _ | ⟨secs, ⟨⟩⟩
      apply (found.bind 0 _).trans
      simp [secs.required? (depth + 1)]
    | closed swept =>
      apply ofJson?_layout_of_fields (by decide) ["dust_swept"] [toJson swept]
        (by decide) rfl _ h
      intro lost members left found fields
      rcases fields with _ | ⟨swept, ⟨⟩⟩
      apply (found.bind 0 _).trans
      simp [swept.required? (depth + 1)]
    | delegated a d t =>
      apply ofJson?_layout_of_fields (by decide) ["kind", "authority", "usable_at"]
        [toJson a, toJson d, toJson t] (by decide) rfl _ h
      intro lost members left found fields
      rcases fields with _ | ⟨kind, _ | ⟨authority, _ | ⟨usableAt, ⟨⟩⟩⟩⟩
      apply (found.bind 0 _).trans
      simp [kind.required? (depth + 1), authority.required? (depth + 1),
        usableAt.required? (depth + 1)]
    | revoked a d =>
      apply ofJson?_layout_of_fields (by decide) ["kind", "authority"] [toJson a, toJson d]
        (by decide) rfl _ h
      intro lost members left found fields
      rcases fields with _ | ⟨kind, _ | ⟨authority, ⟨⟩⟩⟩
      apply (found.bind 0 _).trans
      simp [kind.required? (depth + 1), authority.required? (depth + 1)]
    | funds flow change =>
      have other : ¬ Omissible True flow.tag ∧ flow.tag ≠ "Paused" ∧ flow.tag ≠ "Unpaused" := by
        cases flow <;> decide
      exact ofJson?_layout_tagged other (fun _ _ => ofTagged?_flow_layout) h

end Payload

instance : TolerantForm Event where
  ofJson?_layout depth e lost w h := by
    obtain ⟨members, left, rfl, found, fields⟩ :=
      Layout.record_of_unnamed ["id", "timestamp", "escrow", "nonce", "payload"]
        [toJson e.id, toJson e.time, toJson e.escrow, toJson e.nonce, toJson e.payload]
        (by decide) rfl h
    rcases fields with _ | ⟨id, _ | ⟨time, _ | ⟨escrow, _ | ⟨nonce, _ | ⟨payload, ⟨⟩⟩⟩⟩⟩⟩
    apply (found.bind 0 _).trans
    simp [id.required? depth, time.required? depth, escrow.required? depth, nonce.required? depth,
      payload.required? depth]

end DelegatedEscrow
