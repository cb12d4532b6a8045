import WebSocket.Bytes

/-!
# SHA-1

The digest with which a server proves that it read the key of an upgrade request. A message is
padded to whole blocks of 64 bytes (`pad`); each block is widened to eighty words (`schedule`),
which are mixed into the five words of the state one after another (`State.round`).
-/

namespace WebSocket.Sha1

def rotateLeft (word : UInt32) (n : UInt32) : UInt32 := word <<< n ||| word >>> (32 - n)

structure State where
  a : UInt32 := 0x67452301
  b : UInt32 := 0xEFCDAB89
  c : UInt32 := 0x98BADCFE
  d : UInt32 := 0x10325476
  e : UInt32 := 0xC3D2E1F0
  deriving DecidableEq, Repr

/-- Number of zero bytes between the end mark and the length of a message. -/
def zerosFor (length : Nat) : Nat := (119 - length % 64) % 64

/-- A message with its end mark, up to whole blocks, the last eight bytes its length in bits. -/
def pad (message : Bytes) : Bytes :=
  message ++ 0x80 :: List.replicate (zerosFor message.length) 0
    ++ Bytes.ofNat 8 (8 * message.length)

def words : Bytes → List UInt32
  | a :: b :: c :: d :: rest => UInt32.ofNat (Bytes.toNat [a, b, c, d]) :: words rest
  | _ => []

/-- Adds `n` words to a schedule kept last word first: each is the exclusive or of the 3rd, 8th,
14th and 16th before it, turned by one bit. -/
def extend : (n : Nat) → List UInt32 → List UInt32
  | 0, schedule => schedule
  | n + 1, schedule =>
    let word :=
      schedule.getD 2 0 ^^^ schedule.getD 7 0 ^^^ schedule.getD 13 0 ^^^ schedule.getD 15 0
    extend n (rotateLeft word 1 :: schedule)

def schedule (block : Bytes) : List UInt32 := (extend 64 (words block).reverse).reverse

/-- The mixing function and the constant of a round. -/
def mixing (round : Nat) (s : State) : UInt32 × UInt32 :=
  if round < 20 then ((s.b &&& s.c) ||| (~~~s.b &&& s.d), 0x5A827999)
  else if round < 40 then (s.b ^^^ s.c ^^^ s.d, 0x6ED9EBA1)
  else if round < 60 then ((s.b &&& s.c) ||| (s.b &&& s.d) ||| (s.c &&& s.d), 0x8F1BBCDC)
  else (s.b ^^^ s.c ^^^ s.d, 0xCA62C1D6)

def State.round (s : State) (word : UInt32 × Nat) : State :=
  let (mixed, constant) := mixing word.2 s
  { a := rotateLeft s.a 5 + mixed + s.e + constant + word.1
    b := s.a
    c := rotateLeft s.b 30
    d := s.c
    e := s.d }

def State.absorb (s : State) (block : Bytes) : State :=
  let t := (schedule block).zipIdx.foldl State.round s
  ⟨s.a + t.a, s.b + t.b, s.c + t.c, s.d + t.d, s.e + t.e⟩

/-- The first `n` blocks of a padded message, in order. -/
def absorbBlocks : (n : Nat) → Bytes → State → State
  | 0, _, s => s
  | n + 1, bytes, s => absorbBlocks n (bytes.drop 64) (s.absorb (bytes.take 64))

def State.toBytes (s : State) : Bytes :=
  [s.a, s.b, s.c, s.d, s.e].flatMap fun word => Bytes.ofNat 4 word.toNat

def digest (message : Bytes) : Bytes :=
  let padded := pad message
  (absorbBlocks (padded.length / 64) padded {}).toBytes

theorem length_digest (message : Bytes) : (digest message).length = 20 := by
  simp [digest, State.toBytes]

/-- A padded message is whole blocks. -/
theorem length_pad_mod (message : Bytes) : (pad message).length % 64 = 0 := by
  simp only [pad, zerosFor, List.length_append, List.length_cons, List.length_replicate,
    Bytes.length_ofNat]
  omega

end WebSocket.Sha1
