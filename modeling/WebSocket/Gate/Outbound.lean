import WebSocket.Gate

/-!
# The buffer behind the gate

Frames are written into one buffer, which is kept from one to the next unless a large one has made
it grow too much. The bytes are handed over from there: what `Gate.emit` gives is what the buffer
holds at that time.
-/

namespace WebSocket

/-- How much memory there is to a buffer that is new, and to one that has to grow. -/
structure Allocation where
  fresh : (asked : Nat) → Nat
  le_fresh (asked : Nat) : asked ≤ fresh asked
  grown : (room needed : Nat) → Nat
  le_grown (room needed : Nat) : needed ≤ grown room needed

/-- No more than asked for at first; later twice as much as before, if that is enough. -/
def Allocation.doubling : Allocation where
  fresh := id
  le_fresh := Nat.le_refl
  grown := fun room needed => max (2 * room) (max needed 8)
  le_grown := fun _ needed => Nat.le_trans (Nat.le_max_left needed 8) (Nat.le_max_right _ _)

structure SendBuffer where
  bytes : Bytes := []
  /-- The number of bytes that it can hold without growing. -/
  room : Nat
  deriving DecidableEq, Repr

namespace SendBuffer

def ofRoom (alloc : Allocation) (asked : Nat) : SendBuffer := { room := alloc.fresh asked }

def clear (buffer : SendBuffer) : SendBuffer := { buffer with bytes := [] }

def reserve (alloc : Allocation) (buffer : SendBuffer) (more : Nat) : SendBuffer :=
  let needed := buffer.bytes.length + more
  if needed ≤ buffer.room then buffer
  else { buffer with room := alloc.grown buffer.room needed }

def write (alloc : Allocation) (buffer : SendBuffer) (parcel : Parcel) (key : MaskKey) :
    SendBuffer :=
  let length := (Frame.statusBytes parcel.status).length + parcel.payload.length
  let buffer := buffer.reserve alloc (Frame.encodedLength length true)
  let (_, bytes) := Frame.appendFinal parcel.opcode parcel.payload parcel.status (some key)
    buffer.bytes
  { buffer with bytes }

end SendBuffer

/-- What the gate guards: the buffer and the source of keys. -/
structure Outbound where
  buffer : SendBuffer
  masks : MaskSource
  /-- What was asked for the first buffer. -/
  initialRoom : Nat
  deriving DecidableEq, Repr

namespace Outbound

/-- A buffer with more room than this is not kept, unless the first one had it. -/
def retainedRoom : Nat := 1024 * 1024

def ofSeed (alloc : Allocation) (initialRoom : Nat) (seed : UInt32) : Outbound :=
  { buffer := SendBuffer.ofRoom alloc initialRoom, masks := ⟨seed⟩, initialRoom }

/-- Puts a frame into the buffer, in place of what it held. With this `transmit` begins. -/
def load (alloc : Allocation) (o : Outbound) (parcel : Parcel) : Outbound :=
  let (key, masks) := o.masks.next
  { o with buffer := o.buffer.clear.write alloc parcel key, masks }

/-- Trades a buffer that has grown too much for a new one. With this `transmit` ends. -/
def settle (alloc : Allocation) (o : Outbound) : Outbound :=
  if max retainedRoom o.initialRoom < o.buffer.room then
    { o with buffer := SendBuffer.ofRoom alloc o.initialRoom }
  else o

variable {m : Type → Type} [Monad m] {ε α : Type}

def send (alloc : Allocation) (parcel : Parcel) (transmit : Bytes → m α) :
    StateT Outbound m α := do
  modify (·.load alloc parcel)
  let result ← transmit (← get).buffer.bytes
  modify (·.settle alloc)
  return result

/-- Sends what is consented to (`send_if`). -/
def sendIf (alloc : Allocation) (parcel : Parcel) (consent : m (Except ε Unit))
    (transmit : Bytes → m α) : ExceptT ε (StateT Outbound m) α := do
  -- A refusal ends it here, with the state as it was.
  ExceptT.mk (StateT.lift consent)
  ExceptT.lift (send alloc parcel transmit)

end Outbound

end WebSocket
