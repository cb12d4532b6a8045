import WebSocket.Bytes

/-!
# Masking

A client hides each payload under a four-byte key, repeated along the payload and combined with it
by exclusive or. `MaskKey.apply` is the rule itself, byte by byte; `MaskKey.applyWords` does the
same four bytes at a time. `MaskSource` deals out the keys.
-/

namespace WebSocket

structure MaskKey where
  k0 : UInt8
  k1 : UInt8
  k2 : UInt8
  k3 : UInt8
  deriving DecidableEq, Repr

/-- In which order the bytes of a word count. -/
inductive ByteOrder where
  | littleEndian
  | bigEndian
  deriving DecidableEq, Repr

def ByteOrder.join (order : ByteOrder) (a b c d : UInt8) : UInt32 :=
  match order with
  | littleEndian => a.toUInt32 ||| b.toUInt32 <<< 8 ||| c.toUInt32 <<< 16 ||| d.toUInt32 <<< 24
  | bigEndian => d.toUInt32 ||| c.toUInt32 <<< 8 ||| b.toUInt32 <<< 16 ||| a.toUInt32 <<< 24

def ByteOrder.split (order : ByteOrder) (word : UInt32) : MaskKey :=
  match order with
  | littleEndian =>
    ⟨word.toUInt8, (word >>> 8).toUInt8, (word >>> 16).toUInt8, (word >>> 24).toUInt8⟩
  | bigEndian =>
    ⟨(word >>> 24).toUInt8, (word >>> 16).toUInt8, (word >>> 8).toUInt8, word.toUInt8⟩

namespace MaskKey

def toBytes (key : MaskKey) : Bytes := [key.k0, key.k1, key.k2, key.k3]

/-- The byte of the key that covers a position of the payload. -/
def byteAt (key : MaskKey) (position : Nat) : UInt8 :=
  match position % 4 with
  | 0 => key.k0
  | 1 => key.k1
  | 2 => key.k2
  | _ => key.k3

/-- Covers a payload with the repeated key, or uncovers it (`apply_mask`). -/
def apply (key : MaskKey) (payload : Bytes) : Bytes :=
  payload.mapIdx fun i b => b ^^^ key.byteAt i

def coverWord (order : ByteOrder) (word : UInt32) (a b c d : UInt8) : MaskKey :=
  order.split (order.join a b c d ^^^ word)

/-- Covers a payload word by word; what is left over at the end is covered byte by byte.
`done` holds the covered bytes, last one first. -/
def applyWordsTo (order : ByteOrder) (key : MaskKey) (word : UInt32) :
    (done : Bytes) → Bytes → Bytes
  | done, a :: b :: c :: d :: rest =>
    let covered := coverWord order word a b c d
    applyWordsTo order key word
      (covered.k3 :: covered.k2 :: covered.k1 :: covered.k0 :: done) rest
  | done, tail => done.reverse ++ List.zipWith (· ^^^ ·) tail key.toBytes

/-- The same four bytes at a time (`apply_mask_fast`). -/
def applyWords (order : ByteOrder) (key : MaskKey) (payload : Bytes) : Bytes :=
  applyWordsTo order key (order.join key.k0 key.k1 key.k2 key.k3) [] payload

end MaskKey

/-- A source of masking keys (`MaskGenerator`): a counter whose values are mixed. -/
structure MaskSource where
  counter : UInt32
  deriving DecidableEq, Repr

namespace MaskSource

/-- Spreads the bits of a counter over a word. Each step can be undone, so different counters
give different words. -/
def mix (counter : UInt32) : UInt32 :=
  let product := counter * 0x85EBCA6B
  (product ^^^ (product >>> 13)) * 0xC2B2AE35

def step (source : MaskSource) : MaskSource := ⟨source.counter + 0x9E3779B9⟩

/-- The next key of the source (`next_mask`). -/
def next (source : MaskSource) : MaskKey × MaskSource :=
  (ByteOrder.littleEndian.split (mix source.step.counter), source.step)

end MaskSource

end WebSocket
