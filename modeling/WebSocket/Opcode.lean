/-!
# Opcodes

The low four bits of a frame's first byte say what the frame is for. Six of the sixteen values are
assigned; `Opcode.ofByte?_toByte` and `Opcode.toByte_of_ofByte?` say that the assigned values and
the opcodes are the same thing.
-/

namespace WebSocket

inductive DataKind where
  | text
  | binary
  deriving DecidableEq, Repr

inductive Opcode where
  /-- A later fragment of a message. -/
  | continuation
  | text
  | binary
  | close
  | ping
  | pong
  deriving DecidableEq, Repr

namespace Opcode

def toByte : Opcode → UInt8
  | continuation => 0x0
  | text => 0x1
  | binary => 0x2
  | close => 0x8
  | ping => 0x9
  | pong => 0xA

/-- The opcode with a value on the wire, if that value is assigned. -/
def ofByte? (byte : UInt8) : Option Opcode :=
  if byte = 0x0 then some continuation
  else if byte = 0x1 then some text
  else if byte = 0x2 then some binary
  else if byte = 0x8 then some close
  else if byte = 0x9 then some ping
  else if byte = 0xA then some pong
  else none

/-- Close, ping and pong frames manage the connection and carry no application data. -/
def isControl : Opcode → Bool
  | close | ping | pong => true
  | continuation | text | binary => false

/-- The sort of message that a frame with this opcode begins (`starts_message`). -/
def begins? : Opcode → Option DataKind
  | text => some .text
  | binary => some .binary
  | continuation | close | ping | pong => none

def name : Opcode → String
  | continuation => "Continuation"
  | text => "Text"
  | binary => "Binary"
  | close => "Close"
  | ping => "Ping"
  | pong => "Pong"

@[simp] theorem ofByte?_toByte (op : Opcode) : ofByte? op.toByte = some op := by
  cases op <;> rfl

theorem toByte_of_ofByte? {byte : UInt8} {op : Opcode} (h : ofByte? byte = some op) :
    op.toByte = byte := by
  unfold ofByte? at h
  grind [toByte]

end Opcode

end WebSocket
