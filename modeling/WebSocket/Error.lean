import WebSocket.Opcode

/-!
# What can go wrong

Every cause that a connection can fail for, the text that reports it (`Error.message`) and the
close status that tells the peer about it (`Error.closeStatus`).
-/

namespace WebSocket

/-- A data frame that does not fit the message under way. -/
inductive Violation where
  | unexpectedContinuation
  | expectedContinuation
  /-- A control frame among the fragments of a message. -/
  | notPartOfMessage (op : Opcode)
  | described (text : String)
  deriving DecidableEq, Repr

def Violation.message : Violation → String
  | unexpectedContinuation => "Unexpected continuation frame"
  | expectedContinuation => "Expected continuation frame"
  | notPartOfMessage op => op.name ++ " frame is not part of a message"
  | described text => text

inductive HandshakeFlaw where
  | wrongStatus (status : Nat)
  | missingUpgrade
  | wrongUpgrade (value : String)
  | missingConnection
  | wrongConnection (value : String)
  | missingAccept
  | wrongAccept
  | noAttempt
  | described (text : String)
  deriving DecidableEq, Repr

def HandshakeFlaw.message : HandshakeFlaw → String
  | wrongStatus status => "Expected 101 status, got: " ++ toString status
  | missingUpgrade => "Missing Upgrade header in response"
  | wrongUpgrade value => "Invalid Upgrade header: " ++ value
  | missingConnection => "Missing Connection header in response"
  | wrongConnection value => "Invalid Connection header: " ++ value
  | missingAccept => "Missing Sec-WebSocket-Accept header"
  | wrongAccept => "Sec-WebSocket-Accept does not match Sec-WebSocket-Key"
  | noAttempt => "no handshake in progress"
  | described text => text

inductive FaultOrigin where
  | webSocket
  | transport
  deriving DecidableEq, Repr

def FaultOrigin.context : FaultOrigin → String
  | webSocket => "WebSocket error"
  | transport => "Transport error"

inductive Error where
  | protocolViolation (violation : Violation)
  /-- A text payload or a close reason that is not UTF-8. -/
  | invalidUtf8
  | frameTooLarge (size max : Nat)
  | messageTooLarge (size max : Nat)
  | tooManyFragments (count max : Nat)
  /-- A 64-bit length with its top bit set, or one that no buffer could hold. -/
  | lengthOverflow (length : Nat)
  /-- Nothing can be sent; the status is that of the server's close, if it sent one. -/
  | connectionClosed (received : Option UInt16)
  | invalidHandshake (flaw : HandshakeFlaw)
  | io (reason : String)
  | invalidCloseCode (status : UInt16)
  /-- A close payload of one byte, half a status. -/
  | invalidClosePayload
  /-- An opcode that is set aside for later use. -/
  | reservedOpcode (byte : UInt8)
  | fragmentedControlFrame
  | controlFrameTooLarge (size : Nat)
  | maskedServerFrame
  | reservedBitsSet
  | incompleteFrame (needed : Nat)
  | invalidOpcode (byte : UInt8)
  /-- A failure as it is reported to the application. -/
  | fault (origin : FaultOrigin) (report : String)
  deriving DecidableEq, Repr

def hexLiteral (n : Nat) : String :=
  "0x" ++ String.ofList (Nat.toDigits 16 n)

namespace Error

def message : Error → String
  | protocolViolation violation => "Protocol violation: " ++ violation.message
  | invalidUtf8 => "Invalid UTF-8 in text payload"
  | frameTooLarge size max =>
    "Frame too large: " ++ toString size ++ " bytes (max: " ++ toString max ++ ")"
  | messageTooLarge size max =>
    "Message too large: " ++ toString size ++ " bytes (max: " ++ toString max ++ ")"
  | tooManyFragments count max =>
    "Too many fragments: " ++ toString count ++ " (max: " ++ toString max ++ ")"
  | lengthOverflow length => "Payload length overflow: " ++ toString length
  | connectionClosed none => "Connection closed: None"
  | connectionClosed (some status) => "Connection closed: Some(" ++ toString status.toNat ++ ")"
  | invalidHandshake flaw => "Invalid handshake: " ++ flaw.message
  | io reason => "I/O error: " ++ reason
  | invalidCloseCode status => "Invalid close code: " ++ toString status.toNat
  | invalidClosePayload => "Invalid close payload"
  | reservedOpcode byte => "Reserved opcode: " ++ hexLiteral byte.toNat
  | fragmentedControlFrame => "Control frames cannot be fragmented"
  | controlFrameTooLarge size =>
    "Control frame payload too large: " ++ toString size ++ " bytes (max: 125)"
  | maskedServerFrame => "Server frame must not be masked"
  | reservedBitsSet => "Reserved bits set without negotiated extension"
  | incompleteFrame needed => "Incomplete frame: need " ++ toString needed ++ " more bytes"
  | invalidOpcode byte => "Invalid opcode: " ++ hexLiteral byte.toNat
  | fault origin report => origin.context ++ ": " ++ report

/-- The status of the close that answers the error (`close_code`): 1007 for text that is not UTF-8,
1009 for what exceeds a limit, 1002 for everything else. -/
def closeStatus : Error → UInt16
  | invalidUtf8 => 1007
  | frameTooLarge .. | messageTooLarge .. | tooManyFragments .. => 1009
  | _ => 1002

end Error

end WebSocket
