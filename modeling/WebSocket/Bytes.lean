/-!
# Byte strings and network byte order

A byte string is a list of bytes. Numbers travel in network byte order, most significant byte
first: `Bytes.ofNat` writes a number in a fixed width and `Bytes.toNat` reads it back.
-/

namespace WebSocket

abbrev Bytes := List UInt8

namespace Bytes

/-- The `width` lowest bytes of a number, most significant first. -/
def ofNat : (width : Nat) → Nat → Bytes
  | 0, _ => []
  | width + 1, n => ofNat width (n / 256) ++ [UInt8.ofNat n]

/-- The number that a byte string spells, most significant byte first. -/
def toNat (bytes : Bytes) : Nat :=
  bytes.foldl (fun n b => 256 * n + b.toNat) 0

def ofUInt16 (word : UInt16) : Bytes := ofNat 2 word.toNat

def toUInt16 (high low : UInt8) : UInt16 := UInt16.ofNat (toNat [high, low])

def ofString (text : String) : Bytes := text.toUTF8.data.toList

def toString? (bytes : Bytes) : Option String := String.fromUTF8? bytes.toByteArray

theorem toString?_ofString (text : String) : toString? (ofString text) = some text := by
  have bytes : (ofString text).toByteArray = text.toUTF8 := by
    apply ByteArray.ext
    simp [ofString]
  simp only [toString?, bytes, String.fromUTF8?, String.toUTF8_eq_toByteArray, text.isValidUTF8,
    dif_pos]
  rfl

@[simp] theorem length_ofNat (width n : Nat) : (ofNat width n).length = width := by
  induction width generalizing n with
  | zero => rfl
  | succ width ih => simp [ofNat, ih]

theorem toNat_append_singleton (bytes : Bytes) (b : UInt8) :
    toNat (bytes ++ [b]) = 256 * toNat bytes + b.toNat := by
  simp [toNat]

end Bytes

end WebSocket
