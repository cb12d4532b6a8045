import WebSocket.Client.Sending

/-!
# Connecting

An attempt starts with a new key. The transport reports the response and the end of the handshake;
the connection opens if no response was rejected. A connect that waits gives up when the handshake
takes too long. It sleeps until it is told of a change: of an opening only where the attempt is
awaited, of an end always. So an attempt that came in place of its own can open without its notice.
-/

namespace WebSocket.Client

open WebSocket.Action

/-- The wait in `connect`. -/
def awaitHandshake : Action Unit := do
  if (← get).phase = .connecting then
    waitFor (← get).handshakeTimeout fun c => c.announced != .connecting

/-- Connects and waits for the handshake; `false` if there was a connection or none came about. -/
def connect (key : HandshakeKey) : Action (Except Error Bool) := do
  if ← step (beginConnect key true) then
    match ← request .connect with
    | .error reason =>
      modify abortConnect
      return .error (.io reason)
    | .ok _ =>
      awaitHandshake
      let phase ← step stopAwaiting
      if phase = .connecting then discard disconnectAsync
      return .ok (phase == .opened)
  else return .ok false

/-- Starts to connect; `false` if there was a connection or the transport refused. -/
def connectAsync (key : HandshakeKey) : Action (Except Error Bool) := do
  if ← step (beginConnect key false) then
    if ← request .connectAsync then return .ok true
    else
      modify abortConnect
      return .ok false
  else return .ok false

/-- The response to the upgrade request arrived (`on_received_response_header`). One that is not
accepted ends the attempt. -/
def responseArrived (response : UpgradeResponse) : Action Unit := do
  match ← step (judgeResponse response) with
  | none => return
  | some e =>
    notify (.error (.fault .webSocket e.message))
    discard (request .disconnectAsync)

/-- The handshake is complete (`on_handshaked`). -/
def handshakeCompleted : Action Unit := do
  match ← step completeHandshake with
  | none => return
  | some response => notify (.connected response)

end WebSocket.Client
