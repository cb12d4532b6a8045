/-!
# Phases of a connection

A client starts closed. A connection attempt is connecting until the handshake is complete, then
open; it closes from either side and is closed once the transport is down.
-/

namespace WebSocket

/-- The state of a connection (`ConnectionState`). -/
inductive Phase where
  /-- The transport connects and the handshake is under way. -/
  | connecting
  /-- Messages flow both ways. -/
  | opened
  /-- The client closes and waits for the transport to go down. -/
  | closingLocal
  /-- The server closes and the client has answered. -/
  | closingRemote
  /-- There is no connection. -/
  | closed
  deriving DecidableEq, Repr

namespace Phase

def isActive : Phase → Bool
  | closed => false
  | _ => true

def canSend : Phase → Bool
  | opened => true
  | _ => false

def isClosing : Phase → Bool
  | closingLocal | closingRemote => true
  | _ => false

def name : Phase → String
  | connecting => "Connecting"
  | opened => "Open"
  | closingLocal => "ClosingLocal"
  | closingRemote => "ClosingRemote"
  | closed => "Closed"

end Phase

end WebSocket
