import WebSocket.Bytes
import WebSocket.Error
import WebSocket.Mask

/-!
# Frames

A frame is a piece of traffic: a header that says what the frame is for and how long its payload
is, and the payload. This module holds the frame itself, the rules that every frame from a server
obeys (`Frame.validate`) and the way a frame is written (`Frame.encode`).

Layout of the header:

    byte 0      FIN, RSV1, RSV2, RSV3, then the opcode in four bits
    byte 1      MASK, then the length in seven bits: up to 125 itself, 126 for a 16-bit length
                that follows, 127 for a 64-bit length that follows
    next 0/2/8  the length, most significant byte first
    next 0/4    the masking key, if MASK is set
-/

namespace WebSocket

/-- The most that a control frame holds (`MAX_CONTROL_FRAME_PAYLOAD`). -/
def maxControlPayload : Nat := 125

structure Frame where
  fin : Bool := true
  rsv1 : Bool := false
  rsv2 : Bool := false
  rsv3 : Bool := false
  opcode : Opcode
  payload : Bytes
  deriving DecidableEq, Repr

namespace Frame

def statusBytes : Option UInt16 → Bytes
  | some status => Bytes.ofUInt16 status
  | none => []

def text (payload : Bytes) : Frame := { opcode := .text, payload }

def binary (payload : Bytes) : Frame := { opcode := .binary, payload }

def ping (payload : Bytes) : Frame := { opcode := .ping, payload }

def pong (payload : Bytes) : Frame := { opcode := .pong, payload }

/-- A close frame. Without a status there is no room for a reason. -/
def close (status : Option UInt16) (reason : Bytes) : Frame :=
  { opcode := .close
    payload := match status with
      | some status => Bytes.ofUInt16 status ++ reason
      | none => [] }

/-- The status at the front of a close frame (`close_status`). -/
def closeStatus? (frame : Frame) : Option UInt16 :=
  match frame.opcode, frame.payload with
  | .close, high :: low :: _ => some (Bytes.toUInt16 high low)
  | _, _ => none

/-- The rules for a frame on its own (`validate`): no extension gives the reserved bits a meaning,
and a control frame is whole and short. -/
def validate (frame : Frame) : Except Error Unit :=
  if frame.rsv1 || frame.rsv2 || frame.rsv3 then .error .reservedBitsSet
  else if frame.opcode.isControl then
    if !frame.fin then .error .fragmentedControlFrame
    else if frame.payload.length > maxControlPayload then
      .error (.controlFrameTooLarge frame.payload.length)
    else .ok ()
  else .ok ()

/-! ### Writing -/

/-- The number of bytes that a frame takes (`encoded_len`). -/
def encodedLength (payloadLength : Nat) (masked : Bool) : Nat :=
  2 + (if payloadLength ≤ 125 then 0 else if payloadLength ≤ 65535 then 2 else 8)
    + (if masked then 4 else 0) + payloadLength

def bit (value : UInt8) (set : Bool) : UInt8 := if set then value else 0

/-- The header from the second byte on, as `put_header` writes it: the shortest form of the length,
then the key. -/
def lengthAndKey (payloadLength : Nat) (mask : Option MaskKey) : Bytes :=
  let maskBit := bit 0x80 mask.isSome
  let key := (mask.map MaskKey.toBytes).getD []
  if payloadLength ≤ 125 then (maskBit ||| UInt8.ofNat payloadLength) :: key
  else if payloadLength ≤ 65535 then (maskBit ||| 126) :: Bytes.ofNat 2 payloadLength ++ key
  else (maskBit ||| 127) :: Bytes.ofNat 8 payloadLength ++ key

def cover (mask : Option MaskKey) (payload : Bytes) : Bytes :=
  match mask with
  | some key => key.applyWords .littleEndian payload
  | none => payload

def firstByte (frame : Frame) : UInt8 :=
  frame.opcode.toByte ||| bit 0x80 frame.fin ||| bit 0x40 frame.rsv1 ||| bit 0x20 frame.rsv2
    ||| bit 0x10 frame.rsv3

def encode (frame : Frame) (mask : Option MaskKey) : Bytes :=
  frame.firstByte :: lengthAndKey frame.payload.length mask ++ cover mask frame.payload

def encodeFinal (op : Opcode) (payload : Bytes) (status : Option UInt16)
    (mask : Option MaskKey) : Bytes :=
  let body := statusBytes status ++ payload
  (0x80 ||| op.toByte) :: lengthAndKey body.length mask ++ cover mask body

def wireSize (frame : Frame) (masked : Bool) : Nat :=
  encodedLength frame.payload.length masked

/-! ### Writing behind what a buffer holds -/

/-- Appends a header and a payload, which is covered in its place; gives the number of bytes
added. -/
def put (first : UInt8) (payload : Bytes) (mask : Option MaskKey) (buffer : Bytes) :
    Nat × Bytes :=
  let header := buffer ++ first :: lengthAndKey payload.length mask
  let bare := header ++ payload
  let written := bare.take header.length ++ cover mask (bare.drop header.length)
  (written.length - buffer.length, written)

/-- Appends a frame (`encode`). -/
def append (frame : Frame) (mask : Option MaskKey) (buffer : Bytes) : Nat × Bytes :=
  put frame.firstByte frame.payload mask buffer

/-- Appends a final frame whose payload begins with a status (`encode_frame`). -/
def appendFinal (op : Opcode) (payload : Bytes) (status : Option UInt16) (mask : Option MaskKey)
    (buffer : Bytes) : Nat × Bytes :=
  put (0x80 ||| op.toByte) (statusBytes status ++ payload) mask buffer

end Frame

end WebSocket
