import WebSocket.Close.Body
import WebSocket.Phase

/-!
# Closing from both sides

Either side may close, and each sends a close frame once. `Negotiation` follows the phase of the
connection and decides who has to send what; sending it is for others.
-/

namespace WebSocket

/-- What a close frame from the server calls for (`CloseAction`). -/
inductive Reaction where
  /-- Answer with a close of the same status, then take the transport down. -/
  | echo (status : UInt16)
  /-- The server has answered; take the transport down. -/
  | teardown
  | ignore
  deriving DecidableEq, Repr

/-- The state of a `CloseNegotiator`: the phase of a connection, the status that the client closed
it with and the body that the server did. -/
structure Negotiation where
  phase : Phase := .closed
  sent : Option UInt16 := none
  received : Option CloseBody := none
  deriving DecidableEq, Repr

namespace Negotiation

def beginConnect (n : Negotiation) : Bool × Negotiation :=
  if n.phase = .closed then (true, { phase := .connecting }) else (false, n)

/-- Opens the connection that was connecting (`handshaked`). -/
def completeHandshake (n : Negotiation) : Bool × Negotiation :=
  if n.phase = .connecting then (true, { n with phase := .opened }) else (false, n)

/-- Closes from this side (`local_close`); `true` if a close frame has to be sent, which only the
first close of an open connection needs. -/
def closeLocally (n : Negotiation) (status : UInt16) : Bool × Negotiation :=
  match n.phase with
  | .opened => (true, { n with phase := .closingLocal, sent := some status })
  | .connecting => (false, { n with phase := .closingLocal })
  | .closingLocal | .closingRemote | .closed => (false, n)

def answerStatus : Option CloseBody → UInt16
  | some body => body.code.status
  | none => CloseCode.normal.status

/-- Takes down a close from the server and decides what answers it (`remote_close`). -/
def closeRemotely (n : Negotiation) (body : Option CloseBody) : Reaction × Negotiation :=
  match n.phase with
  | .opened =>
    (.echo (answerStatus body),
      { phase := .closingRemote, sent := some (answerStatus body), received := body })
  | .closingLocal | .connecting => (.teardown, { n with phase := .closingLocal, received := body })
  | .closingRemote | .closed => (.ignore, { n with received := body })

/-- The transport is down (`disconnected`); `false` if it was down before. -/
def disconnect (n : Negotiation) : Bool × Negotiation :=
  if n.phase = .closed then (false, n) else (true, { n with phase := .closed })

end Negotiation

end WebSocket
