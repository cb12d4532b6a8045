import WebSocket.Client.Sending

/-!
# Receiving

The transport delivers bytes. The events they complete are acted on in order: messages go to the
receiver or the mailbox, pings are answered, a close is answered and takes the transport down, and
so does an error, which comes last. All events of a delivery are decoded before the first one is
acted on.
-/

namespace WebSocket.Client

open WebSocket.Action

/-- Takes the oldest message (`receive`), waiting for one while the connection lasts. Without a
limit of its own the configured one counts. -/
def receive (limit : Option Duration) : Action (Option Message) := do
  let limit := limit <|> (← get).receiveTimeout
  waitFor limit fun c => c.mailbox.isReady
  step dequeue

/-- Gives a message to the receiver of the moment, or else to the mailbox. -/
def handOver (message : Message) : Action Unit := do
  match (← get).receiver with
  | some receiver => request (.deliver receiver message)
  | none => modify (enqueue message)

/-- Acts on a close from the server (`remote_close`): the first side to close is answered once, and
then the transport is taken down. -/
def remoteClose (body : Option CloseBody) : Action Unit := do
  notify (.close body)
  match ← step (closeRemotely body) with
  | .echo status =>
    announceClose status
    discard (request .disconnectAsync)
  | .teardown => discard (request .disconnectAsync)
  | .ignore => return

def dispatch : Event → Action Unit
  | .message message => handOver message
  | .ping payload => do
    if (← get).config.autoPong then discard (sendAsync (.pong payload))
    notify (.ping payload)
  | .pong payload => notify (.pong payload)
  | .close body => remoteClose body

/-- The loop at the end of `on_received`. -/
def dispatchAll : List Event → Action Unit
  | [] => return
  | event :: rest => do
    dispatch event
    dispatchAll rest

/-- Acts on bytes that break the rules (`protocol_fault`): the listener is told, the server is told
by a close, and the transport is taken down. -/
def protocolFault (e : Error) : Action Unit := do
  notify (.error (.fault .webSocket e.message))
  if ← step (closeLocally e.closeStatus) then announceClose e.closeStatus
  discard (request .disconnectAsync)

/-- Acts on what was read: on events in order, and on the error they end in. -/
def actOn (read : List Event × Option Error) : Action Unit := do
  dispatchAll read.1
  match read.2 with
  | some e => protocolFault e
  | none => return

/-- Bytes arrived (`on_received`). -/
def bytesArrived (data : Bytes) : Action Unit := do
  actOn (← step (absorb data))

end WebSocket.Client
