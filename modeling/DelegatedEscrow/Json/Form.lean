/-
DelegatedEscrow/Json/Form.lean

Types whose values are written as JSON.  A form writes a value in one way, and
reads more than it writes: members may come in any order, unknown members are
skipped, a record may be given as the array of its fields, and an optional field
may be left out.

The depth at which a value lies is passed along, since one form in the library
limits the nesting of what it reads.
-/
import DelegatedEscrow.Json.Tree

namespace DelegatedEscrow

/-- A type whose values are written as JSON. -/
class JsonForm (α : Type) where
  toJson : α → Json
  /-- Reads a value that lies within `depth` arrays and objects. -/
  ofJson? (depth : Nat) : Json → Option α

export JsonForm (toJson)

/-- The JSON text of a value. -/
def encode {α : Type} [JsonForm α] (a : α) : String := (toJson a).render

/-- The value with a given JSON text. -/
def decode? (α : Type) [JsonForm α] (s : String) : Option α :=
  (Json.ofText? s).bind (JsonForm.ofJson? 0)

namespace Json

variable {α : Type} [JsonForm α]

/-! ### Records -/

/-- The member with a given key, if there is one.  There may not be two. -/
def member? (members : List (Key × Json)) (name : String) : Option (Option Json) :=
  match members.filter fun m => m.1 = some name with
  | [] => some none
  | [m] => some (some m.2)
  | _ => none

/-- The fields of a record in the order of `names`, of which the last `omissible`
may be missing from an array.  Members with other keys are skipped, as long as
the keys are text. -/
def fieldsUpTo? (omissible : Nat) (names : List String) : Json → Option (List (Option Json))
  | scalar _ => none
  | array items =>
    if items.length ≤ names.length ∧ names.length ≤ items.length + omissible then
      some (items.map some ++ List.replicate (names.length - items.length) none)
    else none
  | object members =>
    if members.all fun m => m.1.isSome then names.mapM (member? members) else none

/-- The fields of a record in the order of `names`. -/
def fields? : List String → Json → Option (List (Option Json)) := fieldsUpTo? 0

/-- A field that has to be there. -/
def required? (depth : Nat) (field : Option Json) : Option α :=
  field.bind (JsonForm.ofJson? (depth + 1))

/-- A field that counts as null when it is missing. -/
def optional? (depth : Nat) (field : Option Json) : Option α :=
  JsonForm.ofJson? (depth + 1) (field.getD null)

/-! ### Variants -/

/-- A variant with its data. -/
def tagged (tag : String) (data : Json) : Json := record [(tag, data)]

/-- The tag of a variant and its data.  A tag alone stands for a variant without
data. -/
def variant? : Json → Option (String × Option Json)
  | scalar (.text (some tag)) => some (tag, none)
  | object [(some tag, data)] => some (tag, some data)
  | _ => none

def isNull : Json → Bool
  | scalar .null => true
  | _ => false

/-- The value with a given tag, for a type whose variants have no data. -/
def choice? (values : List α) (tag : α → String) (v : Json) : Option α := do
  let (t, data) ← v.variant?
  if data.all isNull then values.find? fun a => tag a = t else none

/-! ### Integers -/

/-- An integer of a range. -/
def intWithin? (low high : Int) : Json → Option Int
  | scalar (.number l) => do
    let n ← l.integer?
    if low ≤ n ∧ n ≤ high then some n else none
  | _ => none

end Json

instance : JsonForm UInt8 where
  toJson n := .int n.toNat
  ofJson? _ v := (v.intWithin? 0 (UInt8.size - 1 : Nat)).map fun n => UInt8.ofNat n.toNat

instance : JsonForm UInt64 where
  toJson n := .int n.toNat
  ofJson? _ v := (v.intWithin? 0 (UInt64.size - 1 : Nat)).map fun n => UInt64.ofNat n.toNat

instance : JsonForm Int64 where
  toJson n := .int n.toInt
  ofJson? _ v := (v.intWithin? Int64.minValue.toInt Int64.maxValue.toInt).map Int64.ofInt

/-! ### Options and lists -/

section
variable {α : Type} [JsonForm α]

instance : JsonForm (Option α) where
  toJson
    | none => .null
    | some a => toJson a
  ofJson? depth v := if v.isNull then some none else (JsonForm.ofJson? depth v).map some

instance : JsonForm (List α) where
  toJson as := .array (as.map toJson)
  ofJson? depth
    | .array items => items.mapM (JsonForm.ofJson? (depth + 1))
    | _ => none

end

end DelegatedEscrow
