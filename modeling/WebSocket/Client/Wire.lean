import WebSocket.Client.Action

/-!
# Frames among the requests

Three requests hand a frame to the transport. The first byte of the frame says what it is for.
-/

namespace WebSocket

/-- The opcode of the frame at the front, if it is assigned. -/
def Frame.frontOpcode? : Bytes → Option Opcode
  | first :: _ => Opcode.ofByte? (first &&& 0x0F)
  | [] => none

@[simp] theorem Frame.frontOpcode?_encode (parcel : Parcel) (key : MaskKey) :
    Frame.frontOpcode? (parcel.encode key) = some parcel.opcode := by
  show Opcode.ofByte? ((0x80 ||| parcel.opcode.toByte) &&& 0x0F) = some parcel.opcode
  cases parcel.opcode <;> decide

namespace Request

def frame? : Request → Option Bytes
  | send bytes | sendWithin _ bytes | sendAsync bytes => some bytes
  | connect | connectAsync | disconnect | disconnectAsync | notify .. | deliver .. => none

def opcode? (r : Request) : Option Opcode := r.frame?.bind Frame.frontOpcode?

@[simp] theorem opcode?_sendAsync (parcel : Parcel) (key : MaskKey) :
    (sendAsync (parcel.encode key)).opcode? = some parcel.opcode :=
  Frame.frontOpcode?_encode parcel key

end Request

end WebSocket
