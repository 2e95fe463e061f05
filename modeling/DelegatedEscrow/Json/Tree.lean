/-
DelegatedEscrow/Json/Tree.lean

JSON values as trees, and their text.  The members of an object keep their order
and may repeat a key: what that means is up to whoever reads the object.

`Json.tokens` writes a tree and `Json.ofTokens?` reads one.  The reader goes
through the tokens once, with a stack of the arrays and objects that are still
open; its state says which tokens may come next.
-/
import DelegatedEscrow.Json.Token

namespace DelegatedEscrow

namespace Json

/-- A key of an object.  A key with a lone half of a code-unit pair is no text. -/
abbrev Key := Option String

end Json

/-- A JSON value. -/
inductive Json where
  | scalar (s : Json.Scalar)
  | array (items : List Json)
  | object (members : List (Json.Key × Json))
deriving Repr

namespace Json

/-! ### Values -/

def null : Json := scalar .null

def text (s : String) : Json := scalar (.text (some s))

def int (n : Int) : Json := scalar (.number (.ofInt n))

/-- An object with the given members. -/
def record (members : List (String × Json)) : Json :=
  object (members.map fun (k, v) => (some k, v))

mutual

/-- How many arrays and objects are nested in a value, itself included. -/
def depth : Json → Nat
  | scalar _ => 0
  | array items => itemsDepth items + 1
  | object members => membersDepth members + 1

def itemsDepth : List Json → Nat
  | [] => 0
  | v :: rest => max v.depth (itemsDepth rest)

def membersDepth : List (Key × Json) → Nat
  | [] => 0
  | (_, v) :: rest => max v.depth (membersDepth rest)

end

/-- The scalar is text, or a number that double precision can hold, or a word. -/
def Scalar.Plain : Scalar → Prop
  | .number l => l.Finite
  | .text t => t.isSome
  | _ => True

instance : (s : Scalar) → Decidable s.Plain
  | .number l => inferInstanceAs (Decidable l.Finite)
  | .text t => inferInstanceAs (Decidable (t.isSome = true))
  | .null | .bool _ => inferInstanceAs (Decidable True)

mutual

/-- All keys are text, and all scalars are plain. -/
def plain : Json → Bool
  | scalar s => s.Plain
  | array items => itemsPlain items
  | object members => membersPlain members

def itemsPlain : List Json → Bool
  | [] => true
  | v :: rest => v.plain && itemsPlain rest

def membersPlain : List (Key × Json) → Bool
  | [] => true
  | (k, v) :: rest => k.isSome && v.plain && membersPlain rest

end

/-! ### Writing -/

mutual

/-- The tokens of a value. -/
def tokens : Json → List Token
  | scalar s => [.scalar s]
  | array items => .openArray :: itemTokens items
  | object members => .openObject :: memberTokens members

/-- The first item, the rest and the closing bracket. -/
def itemTokens : List Json → List Token
  | [] => [.closeArray]
  | v :: rest => v.tokens ++ moreItemTokens rest

/-- The rest of an array, each item behind a comma. -/
def moreItemTokens : List Json → List Token
  | [] => [.closeArray]
  | v :: rest => .comma :: v.tokens ++ moreItemTokens rest

/-- The first member, the rest and the closing brace. -/
def memberTokens : List (Key × Json) → List Token
  | [] => [.closeObject]
  | (k, v) :: rest => .scalar (.text k) :: .colon :: v.tokens ++ moreMemberTokens rest

/-- The rest of an object, each member behind a comma. -/
def moreMemberTokens : List (Key × Json) → List Token
  | [] => [.closeObject]
  | (k, v) :: rest =>
    .comma :: .scalar (.text k) :: .colon :: v.tokens ++ moreMemberTokens rest

end

/-- The text of a value, without white space. -/
def render (v : Json) : String := String.ofList (v.tokens.flatMap Token.chars)

/-! ### Reading -/

/-- An array or object that is still open, with what has been read of it in
reverse.  An object waits for the value of a key. -/
inductive Frame where
  | array (items : List Json)
  | object (members : List (Key × Json)) (key : Key)

/-- Where the reader is, and the frames around it. -/
inductive Reading where
  /-- A value has to follow. -/
  | value (stack : List Frame)
  /-- Behind an opening bracket. -/
  | firstItem (stack : List Frame)
  /-- Behind an opening brace. -/
  | firstKey (stack : List Frame)
  /-- A key has to follow. -/
  | nextKey (members : List (Key × Json)) (stack : List Frame)
  /-- Behind a key. -/
  | afterKey (members : List (Key × Json)) (key : Key) (stack : List Frame)
  | afterItem (items : List Json) (stack : List Frame)
  | afterMember (members : List (Key × Json)) (stack : List Frame)
  /-- The document is complete. -/
  | complete (v : Json)

namespace Reading

/-- Puts a value where the innermost frame waits for one. -/
def supply (v : Json) : List Frame → Reading
  | [] => complete v
  | .array items :: stack => afterItem (v :: items) stack
  | .object members key :: stack => afterMember ((key, v) :: members) stack

/-- A token at the start of a value. -/
def open? (stack : List Frame) : Token → Option Reading
  | .scalar s => some (supply (.scalar s) stack)
  | .openArray => some (firstItem stack)
  | .openObject => some (firstKey stack)
  | _ => none

/-- One more token. -/
def step? : Reading → Token → Option Reading
  | value stack, t => open? stack t
  | firstItem stack, .closeArray => some (supply (.array []) stack)
  | firstItem stack, t => open? (.array [] :: stack) t
  | firstKey stack, .closeObject => some (supply (.object []) stack)
  | firstKey stack, .scalar (.text k) => some (afterKey [] k stack)
  | nextKey members stack, .scalar (.text k) => some (afterKey members k stack)
  | afterKey members k stack, .colon => some (value (.object members k :: stack))
  | afterItem items stack, .comma => some (value (.array items :: stack))
  | afterItem items stack, .closeArray => some (supply (.array items.reverse) stack)
  | afterMember members stack, .comma => some (nextKey members stack)
  | afterMember members stack, .closeObject =>
    some (supply (.object members.reverse) stack)
  | _, _ => none

/-- The value of a complete document. -/
def result? : Reading → Option Json
  | complete v => some v
  | _ => none

end Reading

/-- The value with the given tokens. -/
def ofTokens? (ts : List Token) : Option Json := do
  let r ← ts.foldlM Reading.step? (Reading.value [])
  r.result?

/-- The value with the given text. -/
def ofText? (s : String) : Option Json := (Token.ofText? s).bind ofTokens?

end Json

end DelegatedEscrow
