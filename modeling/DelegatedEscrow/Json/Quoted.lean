/-
DelegatedEscrow/Json/Quoted.lean

What stands between the quotes of a JSON string.  A character stands for itself,
apart from quotes, backslashes and control characters, which are escaped.  An
escape of four hexadecimal digits is a code unit of UTF-16: two of them can make
up one character, and one half of such a pair alone makes up none.

Reading therefore has two steps: `pieces?` undoes the escapes, and `join?` puts
code units together.  A body with a lone half is well-formed JSON, but it is no
text.
-/

namespace DelegatedEscrow.Json.Quoted

/-- A character, or a code unit that was escaped by its number. -/
inductive Piece where
  | char (c : Char)
  | unit (n : Nat)
deriving DecidableEq, Repr

/-! ### Escapes -/

/-- The value of a hexadecimal digit. -/
def hexDigit? (c : Char) : Option Nat :=
  if c.isDigit then some (c.toNat - '0'.toNat)
  else if 'a' ≤ c ∧ c ≤ 'f' then some (c.toNat - 'a'.toNat + 10)
  else if 'A' ≤ c ∧ c ≤ 'F' then some (c.toNat - 'A'.toNat + 10)
  else none

/-- The number with the given hexadecimal digits. -/
def hex? : List Char → Option Nat
  | cs => cs.foldlM (fun n c => (hexDigit? c).map (16 * n + ·)) 0

/-- The character that a letter after a backslash stands for. -/
def escape? : Char → Option Char
  | '"' => some '"'
  | '\\' => some '\\'
  | '/' => some '/'
  | 'b' => some '\x08'
  | 'f' => some '\x0c'
  | 'n' => some '\n'
  | 'r' => some '\r'
  | 't' => some '\t'
  | _ => none

/-- Characters that are only written escaped. -/
def mustEscape (c : Char) : Bool := c = '"' || c = '\\' || c.toNat < 0x20

/-- Undoes the escapes. -/
def pieces? : List Char → Option (List Piece)
  | [] => some []
  | '\\' :: 'u' :: a :: b :: c :: d :: rest => do
    return .unit (← hex? [a, b, c, d]) :: (← pieces? rest)
  | '\\' :: c :: rest => do return .char (← escape? c) :: (← pieces? rest)
  | c :: rest => if mustEscape c then none else (pieces? rest).map (.char c :: ·)

/-! ### Code units -/

def isHighSurrogate (n : Nat) : Bool := 0xD800 ≤ n && n < 0xDC00

def isLowSurrogate (n : Nat) : Bool := 0xDC00 ≤ n && n < 0xE000

/-- The character that two halves make up. -/
def pair (high low : Nat) : Char :=
  Char.ofNat (0x10000 + 0x400 * (high - 0xD800) + (low - 0xDC00))

/-- Puts code units together, unless one of them is a lone half. -/
def join? : List Piece → Option (List Char)
  | [] => some []
  | .char c :: rest => (join? rest).map (c :: ·)
  | .unit n :: rest =>
    if isHighSurrogate n then
      match rest with
      | .unit m :: rest => if isLowSurrogate m then (join? rest).map (pair n m :: ·) else none
      | _ => none
    else if isLowSurrogate n then none
    else (join? rest).map (Char.ofNat n :: ·)

/-- Reads a body.  The outer `none` is a body that is not well-formed, the inner
one a body that is no text. -/
def decode? (body : List Char) : Option (Option String) :=
  (pieces? body).map fun ps => (join? ps).map String.ofList

/-! ### Writing -/

/-- A character as it is written in a body. -/
def encodeChar (c : Char) : List Char :=
  if c = '"' then ['\\', '"']
  else if c = '\\' then ['\\', '\\']
  else if c = '\x08' then ['\\', 'b']
  else if c = '\x0c' then ['\\', 'f']
  else if c = '\n' then ['\\', 'n']
  else if c = '\r' then ['\\', 'r']
  else if c = '\t' then ['\\', 't']
  else if c.toNat < 0x20 then
    ['\\', 'u', '0', '0', Nat.digitChar (c.toNat / 16), Nat.digitChar (c.toNat % 16)]
  else [c]

/-- Writes a body.  What is no text is written as a lone half. -/
def encode : Option String → List Char
  | some s => s.toList.flatMap encodeChar
  | none => ['\\', 'u', 'd', '8', '0', '0']

end DelegatedEscrow.Json.Quoted
