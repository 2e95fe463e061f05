/-
DelegatedEscrow/Proofs/Json/Fields.lean

What a form has to do to read back what it writes.

`LawfulForm` says that it does, at any depth.  A record is read field by field: as long as
no key occurs twice, each field is found under its name, wherever it stands and whatever
other members there are (`fieldsUpTo?_record`).  What is left for a type is to be put
together from the fields it was taken apart into.
-/
import Mathlib.Data.List.Nodup
import DelegatedEscrow.Json.Form

namespace DelegatedEscrow

open Json JsonForm

/-- A form that reads back what it writes, at any depth. -/
class LawfulForm (α : Type) [JsonForm α] : Prop where
  ofJson?_toJson (depth : Nat) (a : α) : ofJson? depth (toJson a) = some a

export LawfulForm (ofJson?_toJson)

attribute [simp] LawfulForm.ofJson?_toJson

namespace Json

variable {α : Type} {members : List (String × Json)} {names : List String}
variable {values : List Json} {name : String} {v : Json}

/-! ### Records -/

theorem member?_of_mem (distinct : (members.map Prod.fst).Nodup) (h : (name, v) ∈ members) :
    member? (members.map fun (k, v) => (some k, v)) name = some (some v) := by
  have found : (members.map fun (k, v) => ((some k, v) : Key × Json)).filter
      (fun m => m.1 = some name) = [(some name, v)] := by
    induction members with
    | nil => cases h
    | cons m members ih =>
      obtain ⟨fresh, distinct⟩ := List.nodup_cons.1 distinct
      rcases List.mem_cons.1 h with rfl | h
      · -- The key does not occur again.
        have others : (members.map fun (k, v) => ((some k, v) : Key × Json)).filter
            (fun m => m.1 = some name) = [] := by
          rw [List.filter_eq_nil_iff]
          simp only [List.mem_map, decide_eq_true_eq]
          rintro - ⟨m, hm, rfl⟩ same
          obtain rfl : m.1 = name := Option.some.inj same
          exact fresh (List.mem_map.2 ⟨m, hm, rfl⟩)
        rw [List.map_cons, List.filter_cons_of_pos (by simp), others]
      · have other : m.1 ≠ name := by
          rintro rfl
          exact fresh (List.mem_map.2 ⟨_, h, rfl⟩)
        rw [List.map_cons, List.filter_cons_of_neg (by simpa using other), ih distinct h]
  rw [member?, found]

/-- **Records.**  Fields with different names are found among any other members. -/
theorem fieldsUpTo?_record {omissible : Nat} (distinct : (members.map Prod.fst).Nodup)
    (fields : names.zip values ⊆ members) (length : names.length = values.length) :
    (record members).fieldsUpTo? omissible names = some (values.map some) := by
  have keyed : (members.map fun (k, v) => ((some k, v) : Key × Json)).all
      (fun m => m.1.isSome) := by
    simp
  rw [record, fieldsUpTo?, if_pos keyed]
  clear keyed
  -- Names and values run out together; the members are searched as a whole each time.
  induction names generalizing values with
  | nil =>
    cases values with
    | nil => rfl
    | cons v values => cases length
  | cons name names ih =>
    cases values with
    | nil => cases length
    | cons v values =>
      obtain ⟨here, rest⟩ := List.cons_subset.1 fields
      rw [List.mapM_cons, member?_of_mem distinct here, ih rest (Nat.succ.inj length)]
      rfl

/-- A record of just the fields that are asked for. -/
theorem fields?_zip (names : List String) (values : List Json) (distinct : names.Nodup)
    (length : names.length = values.length) :
    (record (names.zip values)).fields? names = some (values.map some) := by
  have keys : (names.zip values).map Prod.fst = names := List.map_fst_zip (Nat.le_of_eq length)
  apply fieldsUpTo?_record _ (List.Subset.refl _) length
  rwa [keys]

theorem fields?_zip_bind (names : List String) (values : List Json) (distinct : names.Nodup)
    (length : names.length = values.length) (next : List (Option Json) → Option α) :
    ((record (names.zip values)).fields? names >>= next) = next (values.map some) := by
  rw [fields?_zip names values distinct length]
  rfl

@[simp] theorem required?_toJson [JsonForm α] [LawfulForm α] (depth : Nat) (a : α) :
    required? depth (some (toJson a)) = some a :=
  ofJson?_toJson (depth + 1) a

@[simp] theorem optional?_toJson [JsonForm α] [LawfulForm α] (depth : Nat) (a : α) :
    optional? depth (some (toJson a)) = some a :=
  ofJson?_toJson (depth + 1) a

/-! ### Variants -/

@[simp] theorem variant?_tagged (tag : String) (data : Json) :
    (tagged tag data).variant? = some (tag, some data) := rfl

/-- Among values with different tags each one is found by its tag. -/
theorem find?_tag {choices : List α} {tag : α → String} {a : α}
    (distinct : (choices.map tag).Nodup) (h : a ∈ choices) :
    choices.find? (fun b => tag b = tag a) = some a := by
  induction choices with
  | nil => cases h
  | cons b choices ih =>
    obtain ⟨fresh, distinct⟩ := List.nodup_cons.1 distinct
    rcases List.mem_cons.1 h with rfl | h
    · rw [List.find?_cons_of_pos (by simp)]
    · have other : tag b ≠ tag a := by
        intro same
        apply fresh
        rw [same]
        exact List.mem_map_of_mem h
      rw [List.find?_cons_of_neg (by simpa using other), ih distinct h]

theorem choice?_text {choices : List α} {tag : α → String} {a : α}
    (distinct : (choices.map tag).Nodup) (h : a ∈ choices) :
    choice? choices tag (text (tag a)) = some a :=
  find?_tag distinct h

/-! ### Integers -/

theorem intWithin?_int {low high n : Int} (above : low ≤ n) (below : n ≤ high) :
    (int n).intWithin? low high = some n := by
  rw [int, intWithin?, Literal.integer?_ofInt, Option.bind_eq_bind, Option.bind_some,
    if_pos ⟨above, below⟩]

end Json

instance : LawfulForm UInt8 where
  ofJson?_toJson depth n := by
    show ((int n.toNat).intWithin? 0 (UInt8.size - 1 : Nat)).map _ = _
    have below : n.toNat < UInt8.size := n.toNat_lt
    rw [intWithin?_int (by omega) (by omega), Option.map_some, Int.toNat_natCast,
      UInt8.ofNat_toNat]

instance : LawfulForm UInt64 where
  ofJson?_toJson depth n := by
    show ((int n.toNat).intWithin? 0 (UInt64.size - 1 : Nat)).map _ = _
    have below : n.toNat < UInt64.size := n.toNat_lt
    rw [intWithin?_int (by omega) (by omega), Option.map_some, Int.toNat_natCast,
      UInt64.ofNat_toNat]

instance : LawfulForm Int64 where
  ofJson?_toJson depth n := by
    show ((int n.toInt).intWithin? _ _).map Int64.ofInt = _
    rw [intWithin?_int (Int64.minValue_le_toInt n) (Int64.toInt_le n), Option.map_some,
      Int64.ofInt_toInt]

/-! ### Options and lists -/

section
variable {α : Type} [JsonForm α]

/-- An option is read back if no value is written as null. -/
theorem LawfulForm.option [LawfulForm α] (solid : ∀ a : α, (toJson a).isNull = false) :
    LawfulForm (Option α) where
  ofJson?_toJson depth o := by
    cases o with
    | none => rfl
    | some a =>
      show (if (toJson a).isNull then some none else (ofJson? depth (toJson a)).map some) = _
      rw [if_neg (by simp [solid a]), ofJson?_toJson, Option.map_some]

/-- A list is read back if each of its items is, one level further down. -/
theorem ofJson?_toJson_list {depth : Nat} {as : List α}
    (each : ∀ a ∈ as, ofJson? (depth + 1) (toJson a) = some a) :
    ofJson? depth (toJson as) = some as := by
  show (as.map toJson).mapM (ofJson? (depth + 1)) = some as
  induction as with
  | nil => rfl
  | cons a as ih =>
    obtain ⟨here, rest⟩ := List.forall_mem_cons.1 each
    rw [List.map_cons, List.mapM_cons, here, ih rest]
    rfl

instance [LawfulForm α] : LawfulForm (List α) where
  ofJson?_toJson depth _ := ofJson?_toJson_list fun a _ => ofJson?_toJson (depth + 1) a

end

end DelegatedEscrow
