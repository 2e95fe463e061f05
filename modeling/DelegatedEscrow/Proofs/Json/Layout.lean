/-
DelegatedEscrow/Proofs/Json/Layout.lean

Other ways to lay out a value.

Whoever writes an instruction by hand, or with another library, puts the members of its
objects in an order of their own, leaves out what says no more than its absence, and sets
blanks between the tokens.  `Layout false v w` says that this is all that is different
about `w`.  A submitter can also forget a member that is needed, and `Layout true v w` says
that this has happened as well, at least once and at any depth:

    Layout lost v w,    lost = "something is gone that was needed".

A relation with a flag has one case for each kind of member (kept, spare or gone), so that
nothing has to be said twice, for the layouts that are read and for those that are not.

An object is laid out in two steps.  Each member becomes what is left of it, perhaps nothing
(`Members`), and then those that are present stand in any order.  Nothing has to change: a
value is a layout of itself (`Layout.refl`).

A field is looked up by its name, so the order is of no consequence (`member?_perm`), and what
is found is what is left of the field (`member?_present`).
-/
import DelegatedEscrow.Json.Form.Instruction
import DelegatedEscrow.Proofs.Json.Fields
import DelegatedEscrow.Proofs.Json.Plain

namespace DelegatedEscrow

open Json JsonForm

namespace Json

/-! ### Members that may be missing -/

/-- The keys of the optional fields. -/
def optionKeys : List String := ["deposits", "traded", "max_lifetime", "last_paused_at"]

/-- The key of lifetime caps. -/
def capsKey : String := "lifetime_limits"

/-- The members are those of an instruction that opens an escrow. -/
def Opens (members : List (Key × Json)) : Prop :=
  (some Instruction.tagKey, text "initialize") ∈ members

/-- A field that may be missing: it is optional, or the caps of an escrow that is opened. -/
def Omissible (opens : Prop) (key : String) : Prop :=
  key ∈ optionKeys ∨ key = capsKey ∧ opens

instance (opens : Prop) (key : String) [Decidable opens] : Decidable (Omissible opens key) :=
  inferInstanceAs (Decidable (_ ∨ _))

/-- A member that says no more than its absence. -/
def Spare (opens : Prop) (key : String) (v : Json) : Prop :=
  key ∈ optionKeys ∧ v = null ∨ key = capsKey ∧ opens ∧ v = toJson LifetimeCaps.unlimited

/-- The members that are present, under their keys. -/
def present (keys : List Key) (left : List (Option Json)) : List (Key × Json) :=
  (keys.zip left).filterMap fun (k, v) => v.map fun w => (k, w)

/-! ### Layouts -/

mutual

/-- The second value is a layout of the first one, and the flag says whether a member that
is needed has been lost. -/
inductive Layout : Bool → Json → Json → Prop
  | scalar (s : Scalar) : Layout false (.scalar s) (.scalar s)
  | array {lost : Bool} {items items' : List Json} (h : Items lost items items') :
    Layout lost (.array items) (.array items')
  | object {lost : Bool} {members members' : List (Key × Json)} {left : List (Option Json)}
    (h : Members (Opens members) lost members left)
    (order : members'.Perm (present (members.map Prod.fst) left)) :
    Layout lost (.object members) (.object members')

/-- Items keep their places. -/
inductive Items : Bool → List Json → List Json → Prop
  | nil : Items false [] []
  | cons {b c : Bool} {v w : Json} {vs ws : List Json} (here : Layout b v w)
    (rest : Items c vs ws) : Items (b || c) (v :: vs) (w :: ws)

/-- What is left of a member with a given key. -/
inductive Member : Prop → Bool → Key → Json → Option Json → Prop
  | kept {opens : Prop} {lost : Bool} {k : Key} {v w : Json} (h : Layout lost v w) :
    Member opens lost k v (some w)
  | spare {opens : Prop} {k : String} {v : Json} (h : Spare opens k v) :
    Member opens false (some k) v none
  | gone {opens : Prop} {k : String} {v : Json} (h : ¬ Omissible opens k) :
    Member opens true (some k) v none

/-- What is left of each member. -/
inductive Members : Prop → Bool → List (Key × Json) → List (Option Json) → Prop
  | nil {opens : Prop} : Members opens false [] []
  | cons {opens : Prop} {b c : Bool} {k : Key} {v : Json} {f : Option Json}
    {members : List (Key × Json)} {left : List (Option Json)} (here : Member opens b k v f)
    (rest : Members opens c members left) :
    Members opens (b || c) ((k, v) :: members) (f :: left)

end

variable {lost : Bool} {opens : Prop} {key name tag : String} {data v w : Json} {f : Option Json}
variable {names : List String} {keys : List Key} {values : List Json}
variable {left : List (Option Json)} {members members' : List (Key × Json)}

theorem capsKey_not_mem_optionKeys : capsKey ∉ optionKeys := by decide

theorem Spare.omissible (h : Spare opens key v) : Omissible opens key := by
  rcases h with ⟨optional, -⟩ | ⟨caps, opening, -⟩
  · exact .inl optional
  · exact .inr ⟨caps, opening⟩

/-- What cannot be missing from an instruction that opens an escrow cannot be missing
anywhere. -/
theorem not_omissible (h : ¬ Omissible True key) : ¬ Omissible opens key :=
  mt (Or.imp_right (And.imp_right fun _ => trivial)) h

theorem mem_present {m : Key × Json} (h : m ∈ present keys left) :
    m.1 ∈ keys ∧ some m.2 ∈ left := by
  obtain ⟨⟨k, f⟩, pair, present⟩ := List.mem_filterMap.1 h
  obtain ⟨w, rfl, rfl⟩ := Option.map_eq_some_iff.1 present
  exact List.of_mem_zip pair

theorem present_cons (k : Key) (f : Option Json) :
    present (k :: keys) (f :: left) = (f.map fun w => (k, w)).toList ++ present keys left := by
  cases f <;> rfl

/-! ### No change -/

theorem present_refl (members : List (Key × Json)) :
    present (members.map Prod.fst) (members.map fun m => some m.2) = members := by
  induction members with
  | nil => rfl
  | cons m members ih =>
    rw [List.map_cons, List.map_cons, present_cons, ih]
    rfl

mutual

theorem Layout.refl : (v : Json) → Layout false v v
  | .scalar s => .scalar s
  | .array items => .array (Items.refl items)
  | .object members => .object (Members.refl _ members) (.of_eq (present_refl members).symm)

theorem Items.refl : (items : List Json) → Items false items items
  | [] => .nil
  | v :: rest => .cons (Layout.refl v) (Items.refl rest)

theorem Members.refl (opens : Prop) :
    (members : List (Key × Json)) → Members opens false members (members.map fun m => some m.2)
  | [] => .nil
  | (_, v) :: rest => .cons (.kept (Layout.refl v)) (Members.refl opens rest)

end

/-! ### Looking for a field -/

/-- The order of members is of no consequence. -/
theorem member?_perm (order : members.Perm members') (name : String) :
    member? members name = member? members' name := by
  have found := order.filter fun m => m.1 = some name
  unfold member?
  generalize members.filter _ = found₁ at found ⊢
  generalize members'.filter _ = found₂ at found ⊢
  match found₁ with
  | [] => rw [found.nil_eq]
  | [m] => rw [found.singleton_eq]
  | m :: m' :: more =>
    -- There are two on the other side as well.
    match found₂ with
    | [] | [_] => cases found.length_eq
    | _ :: _ :: _ => rfl

theorem filter_member (k : Key) (f : Option Json) (name : String) :
    (f.map fun w => (k, w)).toList.filter (fun m => m.1 = some name) =
      if k = some name then (f.map fun w => (k, w)).toList else [] := by
  cases f with
  | none => simp
  | some w => simp [List.filter_cons]

theorem filter_present_of_not_mem (fresh : name ∉ names) :
    (present (names.map some) left).filter (fun m => m.1 = some name) = [] := by
  rw [List.filter_eq_nil_iff]
  intro m hm
  obtain ⟨named, -⟩ := mem_present hm
  obtain ⟨k, hk, e⟩ := List.mem_map.1 named
  rw [← e, decide_eq_true_eq, Option.some.injEq]
  rintro rfl
  exact fresh hk

/-- Under each name stands what is left of the field. -/
theorem member?_present (distinct : names.Nodup) (h : (name, f) ∈ names.zip left) :
    member? (present (names.map some) left) name = some f := by
  have found : (present (names.map some) left).filter (fun m => m.1 = some name) =
      (f.map fun w => (some name, w)).toList := by
    induction names generalizing left with
    | nil => cases h
    | cons k names ih =>
      cases left with
      | nil => cases h
      | cons g left =>
        obtain ⟨fresh, distinct⟩ := List.nodup_cons.1 distinct
        rw [List.map_cons, present_cons, List.filter_append, filter_member]
        rcases List.mem_cons.1 h with here | there
        · cases here
          rw [if_pos rfl, filter_present_of_not_mem fresh, List.append_nil]
        · have other : some k ≠ some name := by
            rintro ⟨⟩
            exact fresh (List.of_mem_zip there).1
          rw [if_neg other, List.nil_append, ih distinct there]
  rw [member?, found]
  cases f <;> rfl

theorem Members.length_eq (h : Members opens lost members left) :
    members.length = left.length := by
  induction members generalizing lost left with
  | nil =>
    cases h with
    | nil => rfl
  | cons m members ih =>
    cases h with
    | cons _ rest => exact congrArg Nat.succ (ih rest)

/-- Under each of the names stands what is left of its field. -/
structure Finds (members : List (Key × Json)) (names : List String)
    (left : List (Option Json)) : Prop where
  keyed : members.all fun m => m.1.isSome
  length_eq : names.length = left.length
  found : ∀ p ∈ names.zip left, member? members p.1 = some p.2

namespace Finds

theorem head (h : Finds members (name :: names) (f :: left)) : member? members name = some f :=
  h.found (name, f) List.mem_cons_self

theorem tail (h : Finds members (name :: names) (f :: left)) : Finds members names left where
  keyed := h.keyed
  length_eq := Nat.succ.inj h.length_eq
  found p hp := h.found p (List.mem_cons_of_mem _ hp)

theorem mapM_eq_some (h : Finds members names left) : names.mapM (member? members) = some left := by
  induction names generalizing left with
  | nil =>
    cases left with
    | nil => rfl
    | cons f left => cases h.length_eq
  | cons name names ih =>
    cases left with
    | nil => cases h.length_eq
    | cons f left =>
      rw [List.mapM_cons, h.head, ih h.tail]
      rfl

/-- A reader that asks for the names goes on with what is left of the fields. -/
theorem bind (h : Finds members names left) {α : Type} (omissible : ℕ)
    (next : List (Option Json) → Option α) :
    ((object members).fieldsUpTo? omissible names >>= next) = next left := by
  rw [fieldsUpTo?, if_pos h.keyed, h.mapM_eq_some]
  rfl

end Finds

/-! ### Layouts of a record -/

/-- The members of the object that a record is written as. -/
def keyed (members : List (String × Json)) : List (Key × Json) :=
  members.map fun (k, v) => (some k, v)

theorem map_fst_keyed (length : names.length = values.length) :
    (keyed (names.zip values)).map Prod.fst = names.map some := by
  have first : (names.zip values).map Prod.fst = names := List.map_fst_zip (Nat.le_of_eq length)
  rw [keyed, List.map_map]
  calc (names.zip values).map (some ∘ Prod.fst)
    _ = ((names.zip values).map Prod.fst).map some := List.map_map.symm
    _ = names.map some := congrArg _ first

/-- What is left of the fields of a record, name by name. -/
def Fields (opens : Prop) (lost : Bool) (names : List String) (values : List Json)
    (left : List (Option Json)) : Prop :=
  Members opens lost (keyed (names.zip values)) left

/-- In a layout of a record each name finds what is left of its field. -/
theorem Layout.record (distinct : names.Nodup) (length : names.length = values.length)
    (h : Layout lost (record (names.zip values)) w) :
    ∃ members left, w = .object members ∧ Finds members names left ∧
      Fields (Opens (keyed (names.zip values))) lost names values left := by
  change Layout lost (.object (keyed (names.zip values))) w at h
  cases h with
  | @object _ _ members left h order =>
    have lengths := h.length_eq
    rw [keyed, List.length_map, List.length_zip, ← length, Nat.min_self] at lengths
    rw [map_fst_keyed length] at order
    refine ⟨members, left, rfl, ⟨?_, lengths, ?_⟩, h⟩
    · rw [List.all_eq_true]
      intro m hm
      obtain ⟨named, -⟩ := mem_present (order.subset hm)
      obtain ⟨k, -, e⟩ := List.mem_map.1 named
      rw [← e]
      rfl
    · rintro ⟨name, f⟩ field
      rw [member?_perm order]
      exact member?_present distinct field

/-- A record without the tag of an instruction opens no escrow. -/
theorem Layout.record_of_unnamed (names : List String) (values : List Json)
    (distinct : (Instruction.tagKey :: names).Nodup) (length : names.length = values.length)
    (h : Layout lost (Json.record (names.zip values)) w) :
    ∃ members left, w = .object members ∧ Finds members names left ∧
      Fields False lost names values left := by
  obtain ⟨unnamed, distinct⟩ := List.nodup_cons.1 distinct
  obtain ⟨members, left, e, found, fields⟩ := h.record distinct length
  have closed : Opens (keyed (names.zip values)) = False := by
    refine eq_false fun opening => ?_
    obtain ⟨m, hm, e⟩ := List.mem_map.1 opening
    obtain ⟨named, -⟩ := List.of_mem_zip hm
    exact unnamed (Option.some.inj (congrArg Prod.fst e) ▸ named)
  rw [closed] at fields
  exact ⟨members, left, e, found, fields⟩

/-- In a layout of a variant there is its data under its tag, or nothing. -/
theorem Layout.tagged (needed : ¬ Omissible True tag) (h : Layout lost (Json.tagged tag data) w) :
    (∃ data', w = Json.tagged tag data' ∧ Layout lost data data') ∨
      w = .object [] ∧ lost = true := by
  cases h with
  | object h order =>
    rcases h with _ | ⟨here, ⟨⟩⟩
    rw [Bool.or_false]
    cases here with
    | kept h => exact .inl ⟨_, congrArg Json.object (List.perm_singleton.1 order), h⟩
    | spare h => exact absurd h.omissible (not_omissible needed)
    | gone _ => exact .inr ⟨congrArg Json.object (List.perm_nil.1 order), rfl⟩

/-! ### Room for a layout -/

-- The flag is of no interest here: what is left of a value has no more in it than the value.
mutual

theorem Layout.fits {lost : Bool} {v w : Json} {n : ℕ} : Layout lost v w → v.Fits n → w.Fits n
  | .scalar _, fits => fits
  | .array h, fits => by
    cases n with
    | zero => cases fits.2
    | succ n =>
      rw [fits_array_iff] at fits ⊢
      exact h.fits fits
  | .object h order, fits => by
    cases n with
    | zero => cases fits.2
    | succ n =>
      rw [fits_object_iff] at fits ⊢
      intro m hm
      obtain ⟨key, value⟩ := mem_present (order.subset hm)
      obtain ⟨m', hm', same⟩ := List.mem_map.1 key
      exact ⟨same ▸ (fits m' hm').1, h.fits (fun m hm => (fits m hm).2) m.2 value⟩

theorem Items.fits {lost : Bool} {vs ws : List Json} {n : ℕ} :
    Items lost vs ws → (∀ v ∈ vs, v.Fits n) → ∀ w ∈ ws, w.Fits n
  | .nil, fits => fits
  | .cons here rest, fits => by
    obtain ⟨first, others⟩ := List.forall_mem_cons.1 fits
    exact List.forall_mem_cons.2 ⟨here.fits first, rest.fits others⟩

theorem Member.fits {opens : Prop} {lost : Bool} {k : Key} {v : Json} {f : Option Json}
    {n : ℕ} : Member opens lost k v f → v.Fits n → ∀ w, some w = f → w.Fits n
  | .kept h, fits => by
    rintro w ⟨⟩
    exact h.fits fits
  | .spare _, _ | .gone _, _ => fun _ => nofun

theorem Members.fits {opens : Prop} {lost : Bool} {members : List (Key × Json)}
    {left : List (Option Json)} {n : ℕ} :
    Members opens lost members left → (∀ m ∈ members, m.2.Fits n) → ∀ w, some w ∈ left → w.Fits n
  | .nil, _ => fun _ => nofun
  | .cons here rest, fits => by
    intro w hw
    obtain ⟨first, others⟩ := List.forall_mem_cons.1 fits
    rcases List.mem_cons.1 hw with left | hw
    · exact here.fits first w left
    · exact rest.fits others w hw

end

end Json

end DelegatedEscrow
