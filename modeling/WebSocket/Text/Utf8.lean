import WebSocket.Bytes

/-!
# Reading damaged UTF-8

`Utf8.decodeLossy` reads any byte string as text. Where the bytes are no UTF-8, each longest piece
that could still have begun a character becomes one replacement character, and so does each byte
that begins none. The bytes are read one at a time; `Utf8.Reader` says what has been seen of the
character under way.
-/

namespace WebSocket.Utf8

/-- What stands in the place of bytes that are no character. -/
def replacement : Char := '\uFFFD'

/-- A character of which some bytes are still to come. -/
structure Partial where
  owed : Nat
  least : UInt8
  greatest : UInt8
  bits : Nat
  deriving DecidableEq, Repr

/-- How a byte begins a character. -/
inductive Lead where
  | whole (c : Char)
  | more (pending : Partial)
  | none
  deriving DecidableEq, Repr

def lowBits (modulus : Nat) (b : UInt8) : Nat := b.toNat % modulus

/-- What the first byte of a character tells. The second byte is held to the range that leaves
out longer spellings of short characters, surrogates and values past the last character. -/
def lead (b : UInt8) : Lead :=
  if b < 0x80 then .whole (Char.ofNat b.toNat)
  else if b < 0xC2 then .none
  else if b < 0xE0 then .more ⟨1, 0x80, 0xBF, lowBits 32 b⟩
  else if b < 0xF0 then
    .more ⟨2, if b = 0xE0 then 0xA0 else 0x80, if b = 0xED then 0x9F else 0xBF, lowBits 16 b⟩
  else if b < 0xF5 then
    .more ⟨3, if b = 0xF0 then 0x90 else 0x80, if b = 0xF4 then 0x8F else 0xBF, lowBits 8 b⟩
  else .none

/-- The reader: the character under way and the characters read, last one first. -/
structure Reader where
  pending : Option Partial := none
  read : List Char := []
  deriving DecidableEq, Repr

namespace Reader

def begin (read : List Char) (b : UInt8) : Reader :=
  match lead b with
  | .whole c => ⟨none, c :: read⟩
  | .more pending => ⟨some pending, read⟩
  | .none => ⟨none, replacement :: read⟩

def step (reader : Reader) (b : UInt8) : Reader :=
  match reader.pending with
  | none => begin reader.read b
  | some pending =>
    if pending.least ≤ b && b ≤ pending.greatest then
      let bits := pending.bits * 64 + lowBits 64 b
      if pending.owed = 1 then ⟨none, Char.ofNat bits :: reader.read⟩
      else ⟨some ⟨pending.owed - 1, 0x80, 0xBF, bits⟩, reader.read⟩
    else begin (replacement :: reader.read) b

/-- The text that was read; a character that never ended is replaced. -/
def finish (reader : Reader) : List Char :=
  match reader.pending with
  | none => reader.read.reverse
  | some _ => (replacement :: reader.read).reverse

end Reader

def decodeLossy (bytes : Bytes) : String :=
  String.ofList (bytes.foldl Reader.step {}).finish

end WebSocket.Utf8
