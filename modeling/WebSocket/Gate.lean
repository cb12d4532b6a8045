import WebSocket.Frame

/-!
# The gate for outgoing frames

All frames of a client leave through one gate, one at a time. The gate turns what is to be sent
into a masked, final frame under the next key of its source.
-/

namespace WebSocket

/-- What is to be sent as one frame. -/
structure Parcel where
  opcode : Opcode
  payload : Bytes
  /-- Written before the payload. -/
  status : Option UInt16 := none
  deriving DecidableEq, Repr

def Parcel.encode (parcel : Parcel) (key : MaskKey) : Bytes :=
  Frame.encodeFinal parcel.opcode parcel.payload parcel.status (some key)

/-- The way out for frames (`SendGate`): the keys, and the lock that its users take. -/
structure Gate where
  masks : MaskSource
  /-- A frame is on its way out, and no other may follow until it is gone. -/
  isHeld : Bool := false
  deriving DecidableEq, Repr

namespace Gate

def ofSeed (seed : UInt32) : Gate := { masks := ⟨seed⟩ }

def emit (gate : Gate) (parcel : Parcel) : Bytes × Gate :=
  let (key, masks) := gate.masks.next
  (parcel.encode key, { gate with masks })

/-- The frame of a parcel if it is admitted, as `send_if` has it; a refused one costs no key. -/
def emitIf {ε : Type} (gate : Gate) (consent : Except ε Unit) (parcel : Parcel) :
    Except ε Bytes × Gate :=
  match consent with
  | .error e => (.error e, gate)
  | .ok _ => (.ok (gate.emit parcel).1, (gate.emit parcel).2)

def hold (gate : Gate) : Gate := { gate with isHeld := true }

def release (gate : Gate) : Gate := { gate with isHeld := false }

end Gate

end WebSocket
