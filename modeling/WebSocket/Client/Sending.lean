import WebSocket.Client.Notify

/-!
# Sending

Every frame goes through the gate. A message is let through only while the connection is open,
which is checked with the gate held; a close goes out because the negotiation called for it.
-/

namespace WebSocket.Client

open WebSocket.Action

variable {α : Type}

/-- Waits for the gate and hands the frame of a parcel over, if it is consented to (`send_if`). -/
def throughGate (consent : Client → Except Error Unit) (parcel : Parcel)
    (transmit : Bytes → Action α) : Action (Except Error α) := do
  waitFor none fun c => !c.gate.isHeld
  match ← step (enterGate consent parcel) with
  | .error e => return .error e
  | .ok bytes =>
    let answer ← transmit bytes
    modify leaveGate
    return .ok answer

/-- The consent of `send`, which asks for none. -/
def always (_ : Client) : Except Error Unit := .ok ()

def transmitWithin (limit : Option Duration) (bytes : Bytes) : Action (Except String Nat) :=
  match limit with
  | some limit => request (.sendWithin limit bytes)
  | none => request (.send bytes)

/-- Sends a frame and waits (`transmit`). Without a limit of its own the configured one counts. A
failure of the transport is the end of the connection. -/
def transmit (consent : Client → Except Error Unit) (parcel : Parcel) (limit : Option Duration) :
    Action (Except Error Nat) := do
  let limit := limit <|> (← get).sendTimeout
  match ← throughGate consent parcel (transmitWithin limit) with
  | .error e => return .error e
  | .ok (.ok count) => return .ok count
  | .ok (.error reason) =>
    transportFailed reason
    return .error (.io reason)

/-- Leaves a frame with the transport: `send_frame_async` if the connection has to be open,
`transmit_async` if `always`. -/
def transmitAsync (consent : Client → Except Error Unit) (parcel : Parcel) :
    Action (Except Error Bool) :=
  throughGate consent parcel fun bytes => request (.sendAsync bytes)

/-! ### Messages -/

/-- Sends a message or a ping or pong (`send_frame`). -/
def send (what : Outgoing) (limit : Option Duration) : Action (Except Error Nat) :=
  transmit checkOpen what.parcel limit

/-- Leaves a message or a ping or pong with the transport; `false` if it was refused. -/
def sendAsync (what : Outgoing) : Action (Except Error Bool) :=
  transmitAsync checkOpen what.parcel

/-! ### Closing -/

/-- Closes with a code and a reason (`send_close_inner`). -/
def sendClose (code : CloseCode) (reason : String) (limit : Option Duration) :
    Action (Except Error Nat) := do
  match ← step (beginClose code) with
  | .error e => return .error e
  | .ok none => return .ok 0
  | .ok (some status) => transmit always (closeParcel status (Bytes.ofString reason)) limit

/-- Closes with a code and a reason (`send_close_async`); `false` if no close was left with the
transport. -/
def sendCloseAsync (code : CloseCode) (reason : String) : Action (Except Error Bool) := do
  match ← step (beginClose code) with
  | .error e => return .error e
  | .ok none => return .ok false
  | .ok (some status) => transmitAsync always (closeParcel status (Bytes.ofString reason))

/-- Leaves a close without a reason with the transport, whether or not it takes it. -/
def announceClose (status : UInt16) : Action Unit := do
  discard (transmitAsync always (closeParcel status []))

/-- Closes the connection and waits until the transport is down; `false` if it was closed. -/
def disconnect : Action Bool := do
  match ← step beginDisconnect with
  | none => return false
  | some mustSend =>
    if mustSend then
      discard (throughGate always (closeParcel CloseCode.normal.status [])
        fun bytes => request (.send bytes))
    request .disconnect

/-- Starts to close the connection; `false` if it was closed. -/
def disconnectAsync : Action Bool := do
  match ← step beginDisconnect with
  | none => return false
  | some mustSend =>
    if mustSend then announceClose CloseCode.normal.status
    request .disconnectAsync

end WebSocket.Client
