/-
DelegatedEscrow/Identity.lean

Signers, escrow owners, delegates and tokens are all named by a key of 32
bytes.  Keys are compared byte by byte, first byte first; the comparison is a
lawful total order, which is what lets a key index a sorted table.

The key of 32 zero bytes is the *unset* identity: it names nobody, and no
authority can be delegated to it.  `ofSeed` gives distinct keys that are never
unset, since it marks the last byte.
-/
import Std.Data.ExtTreeMap

namespace DelegatedEscrow

/-- A key of 32 bytes. -/
@[ext] structure Identity where
  /-- The bytes, first to last. -/
  bytes : List UInt8
  length_bytes : bytes.length = 32
deriving DecidableEq, Repr

/-- The eight bytes of a word, least significant first. -/
def littleEndian (w : UInt64) : List UInt8 :=
  (List.range 8).map fun i => UInt8.ofNat (w.toNat >>> (8 * i))

/-- The two lowercase hexadecimal digits of a byte. -/
def hexPair (b : UInt8) : List Char :=
  [Nat.digitChar (b.toNat / 16), Nat.digitChar (b.toNat % 16)]

namespace Identity

/-- The key of 32 zero bytes, which names nobody. -/
def unset : Identity where
  bytes := List.replicate 32 0
  length_bytes := by simp

/-- The key with the given bytes, if there are 32 of them. -/
def ofBytes? (bytes : List UInt8) : Option Identity :=
  if h : bytes.length = 32 then some ⟨bytes, h⟩ else none

/-- The key that starts with the bytes of `seed`, least significant first, and
ends in a byte 1. -/
def ofSeed (seed : UInt64) : Identity where
  bytes := littleEndian seed ++ List.replicate 23 0 ++ [1]
  length_bytes := by simp [littleEndian]

/-! ### Text -/

/-- All bytes in hexadecimal. -/
def hex (i : Identity) : String := String.ofList (i.bytes.flatMap hexPair)

/-- The first four bytes in hexadecimal, enough to tell keys apart in a log. -/
def short (i : Identity) : String := String.ofList ((i.bytes.take 4).flatMap hexPair)

/-! ### Order -/

instance : Ord Identity := ⟨compareOn Identity.bytes⟩

instance : Std.TransOrd Identity :=
  inferInstanceAs (Std.TransCmp (compareOn Identity.bytes))

instance : Std.LawfulEqOrd Identity where
  eq_of_compare {a b} h := by
    have h' : compare a.bytes b.bytes = .eq := h
    exact Identity.ext (Std.LawfulEqCmp.eq_of_compare h')

@[simp] theorem ofBytes?_bytes (i : Identity) : ofBytes? i.bytes = some i := by
  simp [ofBytes?, i.length_bytes]

end Identity

end DelegatedEscrow
