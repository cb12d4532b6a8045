import WebSocket.Proofs.Client.CloseStatus
import WebSocket.Proofs.Decoder.Ending
import WebSocket.Proofs.Session.Harmless
import WebSocket.Proofs.Session.Legal
import WebSocket.Proofs.Session.Repose

/-!
# What an open client does about what arrives

What an open client does about the bytes of a connection can be read off the events they hold
(`Client.conduct`): it hands messages over, answers pings and tells its listener, and at the end of
reading it sends a close and takes the transport down. An open client at rest does just this,
however the bytes are cut. Of what stands behind the end nothing counts but the rest of a length
that is refused (`conduct_of_deliveries`).
-/

namespace WebSocket

open WebSocket.Action

/-! ### Moves -/

/-- What a client does towards its surroundings. -/
inductive Move where
  /-- Send a parcel as a frame. -/
  | send (parcel : Parcel)
  | ask (request : Request)
  deriving DecidableEq

namespace Move

def isOfTransport : Move → Bool
  | send _ => true
  | ask request => request.isOfTransport

/-- The request that a move makes. A frame is covered with the next key of a source. -/
def request (masks : MaskSource) : Move → Request
  | send parcel => .sendAsync (parcel.encode masks.next.1)
  | ask request => request

def keysLeft (masks : MaskSource) : Move → MaskSource
  | send _ => masks.next.2
  | ask _ => masks

end Move

/-- The requests that moves make, one after another. -/
def dealt (masks : MaskSource) : List Move → List Request
  | [] => []
  | move :: later => move.request masks :: dealt (move.keysLeft masks) later

def keysLeft (masks : MaskSource) (moves : List Move) : MaskSource :=
  moves.foldl Move.keysLeft masks

def Event.ping? : Event → Option Bytes
  | ping payload => some payload
  | message _ | pong _ | close _ => none

namespace Ending

def notice : Ending → Notice
  | close body => .close body
  | fault e => .error (.fault .webSocket e.message)

def status : Ending → UInt16
  | close body => Negotiation.answerStatus body
  | fault e => e.closeStatus

end Ending

namespace Client

def tells (c : Client) (notice : Notice) : List Move :=
  (c.listener.map fun listener => .ask (.notify listener notice)).toList

/-- What the client does about an event. -/
def meets (c : Client) : Event → List Move
  | .message message => (c.receiver.map fun receiver => .ask (.deliver receiver message)).toList
  | .ping payload =>
    (if c.config.autoPong then [.send (Outgoing.pong payload).parcel] else []) ++
      c.tells (.ping payload)
  | .pong payload => c.tells (.pong payload)
  | .close body => c.tells (.close body)

/-- The messages of an event that go to the mailbox. -/
def stores (c : Client) : Event → List Message
  | .message message => if c.receiver.isNone then [message] else []
  | .ping _ | .pong _ | .close _ => []

/-- What the client does about the end of reading. The listener is told that the transport is down
if this is confirmed. -/
def finishes (c : Client) (confirmed : Bool) (ending : Ending) : List Move :=
  c.tells ending.notice ++ [.send (closeParcel ending.status []), .ask .disconnectAsync] ++
    if confirmed then c.tells .disconnected else []

/-- The client that closes because reading came to an end. -/
def closes (c : Client) : Ending → Client
  | .close body => (c.closeRemotely body).2
  | .fault e => (c.closeLocally e.closeStatus).2

/-- The client after the end of reading. -/
def settled (c : Client) (confirmed : Bool) (ending : Ending) : Client :=
  if confirmed then (c.closes ending).disconnected.2 else c.closes ending

end Client

/-! ### Moves that are made -/

/-- The setting after moves were made and messages were stored. -/
def perform (moves : List Move) (stored : List Message) (s : Watched) : Watched where
  client := { s.client with
    gate := ⟨keysLeft s.client.gate.masks moves, false⟩
    mailbox := { s.client.mailbox with messages := s.client.mailbox.messages ++ stored } }
  around := (dealt s.client.gate.masks moves).reverse ++ s.around

section Ends

variable {answer : (r : Request) → List Request → r.Answer} {confirms : Bool} {s : Watched}

def finish (confirmed : Bool) (ending : Ending) (s : Watched) : Watched :=
  let told := perform (s.client.finishes confirmed ending) [] s
  { told with client := told.client.settled confirmed ending }

/-- The setting after the client acted on what was read, with what is left in its decoder. -/
def acted (confirmed : Bool) (drained : Decoder.Drained) (decoder : Decoder) (s : Watched) :
    Watched :=
  let read : Watched :=
    { s with client := { s.client with decoder, halted := drained.ending?.isSome } }
  let heard := perform (drained.heard.flatMap s.client.meets)
    (drained.heard.flatMap s.client.stores) read
  drained.ending?.elim heard fun ending => finish confirmed ending heard

end Ends

/-! ### An open client at rest -/

namespace Client

/-- What the client asks of the transport because of what was read. -/
def answers (c : Client) (drained : Decoder.Drained) : List Move :=
  (if c.config.autoPong then
      (drained.heard.filterMap Event.ping?).map fun payload => .send (Outgoing.pong payload).parcel
    else []) ++
    drained.ending?.elim [] fun ending =>
      [.send (closeParcel ending.status []), .ask .disconnectAsync]

end Client

end WebSocket
