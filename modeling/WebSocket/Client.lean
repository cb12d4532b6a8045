import WebSocket.Close.Negotiation
import WebSocket.Config
import WebSocket.Decoder
import WebSocket.Gate
import WebSocket.Handshake
import WebSocket.Mailbox

/-!
# The state of a client

A client holds one connection at a time: where it stands, the handshake of the current or last
attempt, what has arrived and waits, the gate for outgoing frames and who is to be told. This
module holds that state and the steps that change it at a stroke: the parts of the client's
functions in which nobody else has control. Everything that involves the transport or a listener is
an `Action` built from these steps.
-/

namespace WebSocket

/-- Who is told what happens to a connection. -/
inductive Listener where
  /-- A listener that does nothing, whatever it is told. -/
  | silent
  | named (name : String)
  deriving DecidableEq, Repr

/-- The state of a `WssClient`. From the negotiation to the response it is `lifecycle`, the decoder
and `halted` are `inbox`, and the mailbox is `hub`. -/
structure Client where
  config : Config
  negotiation : Negotiation := {}
  key : Option HandshakeKey := none
  /-- Who started this attempt waits for it, and is told when the connection opens
  (`sync_connect`). -/
  awaited : Bool := false
  /-- The phase of which those who wait for a handshake were told last (by `changed`). -/
  announced : Phase := .closed
  /-- The response to this attempt was not accepted. -/
  rejected : Bool := false
  response : Option UpgradeResponse := none
  decoder : Decoder
  /-- Nothing that arrives counts any more. -/
  halted : Bool := false
  mailbox : Mailbox := {}
  gate : Gate
  listener : Option Listener := none
  /-- Who is given the messages in place of the mailbox. -/
  receiver : Option String := none
  deriving DecidableEq, Repr

inductive Outgoing where
  | text (content : String)
  | binary (content : Bytes)
  | ping (payload : Bytes)
  | pong (payload : Bytes)
  deriving DecidableEq, Repr

def Outgoing.parcel : Outgoing → Parcel
  | text content => ⟨.text, Bytes.ofString content, none⟩
  | binary content => ⟨.binary, content, none⟩
  | ping payload => ⟨.ping, payload, none⟩
  | pong payload => ⟨.pong, payload, none⟩

def closeParcel (status : UInt16) (reason : Bytes) : Parcel := ⟨.close, reason, some status⟩

namespace Client

/-- A new client. Its masking keys start from the seed. -/
def ofConfig (config : Config) (seed : UInt32) : Client :=
  { config, decoder := .ofConfig config, gate := .ofSeed seed }

def phase (c : Client) : Phase := c.negotiation.phase

def isOpen (c : Client) : Bool := c.phase == .opened

/-- The close from the server on the current or last connection (`close_status`). -/
def received (c : Client) : Option CloseBody := c.negotiation.received

/-- How a client is shown. -/
def report (c : Client) : String :=
  "WssClient \x7b state: " ++ c.phase.name ++ ", queued: " ++ toString c.mailbox.size ++ ", .. \x7d"

def handshakeTimeout (c : Client) : Option Duration := c.config.timeouts.map (·.handshake)

def sendTimeout (c : Client) : Option Duration := c.config.timeouts.map (·.send)

def receiveTimeout (c : Client) : Option Duration := c.config.timeouts.map (·.receive)

/-! ### Connecting -/

/-- Begins an attempt and forgets the last one (`prepare_connect`); `false` unless the client was
closed. -/
def beginConnect (key : HandshakeKey) (awaited : Bool) (c : Client) : Bool × Client :=
  match c.negotiation.beginConnect with
  | (false, _) => (false, c)
  | (true, negotiation) =>
    (true, { c with
      negotiation
      key := some key
      awaited
      announced := .connecting
      rejected := false
      response := none
      decoder := c.decoder.reset
      halted := false
      mailbox := c.mailbox.reopen })

/-- Ends an attempt that the transport did not take up (`abort_connect`). Nobody is told. -/
def abortConnect (c : Client) : Client :=
  { c with
    negotiation := c.negotiation.disconnect.2
    awaited := false
    mailbox := c.mailbox.close }

/-- The end of the wait in `connect`, and the phase at that time. -/
def stopAwaiting (c : Client) : Phase × Client := (c.phase, { c with awaited := false })

/-- Judges the response to the current attempt, with which `on_received_response_header` begins;
gives the error if it is not accepted. A response while nothing is connecting is passed over. -/
def judgeResponse (response : UpgradeResponse) (c : Client) : Option Error × Client :=
  if c.phase ≠ .connecting then (none, c)
  else
    match c.key with
    | none => (some (.invalidHandshake .noAttempt), { c with rejected := true })
    | some key =>
      match response.validate key with
      | .ok _ => (none, { c with response := some response })
      | .error e => (some e, { c with rejected := true })

/-- Opens the connection, unless a response was rejected, with which `on_handshaked` begins; gives
the accepted response, which is handed out once. If the attempt is awaited, those who wait are
told. -/
def completeHandshake (c : Client) : Option (Option UpgradeResponse) × Client :=
  if c.rejected then (none, c)
  else
    match c.negotiation.completeHandshake with
    | (false, _) => (none, c)
    | (true, negotiation) =>
      (some c.response, { c with
        negotiation
        announced := if c.awaited then negotiation.phase else c.announced
        response := none })

/-! ### Closing -/

/-- Closes from this side (`local_close`); `true` if a close frame has to be sent. -/
def closeLocally (status : UInt16) (c : Client) : Bool × Client :=
  let (mustSend, negotiation) := c.negotiation.closeLocally status
  (mustSend, { c with negotiation })

/-- Starts a disconnect (`begin_disconnect`); `none` if there is nothing to disconnect. -/
def beginDisconnect (c : Client) : Option Bool × Client :=
  if c.phase = .closed then (none, c)
  else
    let (mustSend, c) := c.closeLocally CloseCode.normal.status
    (some mustSend, c)

/-- Starts a close with a code (`begin_local_close`); gives the status to send, or nothing if a
close is under way or done. -/
def beginClose (code : CloseCode) (c : Client) : Except Error (Option UInt16) × Client :=
  if !code.isAllowed then (.error (.invalidCloseCode code.status), c)
  else
    match c.phase with
    | .opened => (.ok (some code.status), (c.closeLocally code.status).2)
    | .closingLocal | .closingRemote | .closed => (.ok none, c)
    | .connecting => (.error (.connectionClosed none), c)

def closeRemotely (body : Option CloseBody) (c : Client) : Reaction × Client :=
  let (reaction, negotiation) := c.negotiation.closeRemotely body
  (reaction, { c with negotiation })

/-- The transport is down, with which `on_disconnected` begins: what was under way is dropped, and
neither a reader nor who waits for a handshake waits any longer. `false` if it was down before. -/
def disconnected (c : Client) : Bool × Client :=
  let (changed, negotiation) := c.negotiation.disconnect
  (changed, { c with
    negotiation
    awaited := false
    announced := negotiation.phase
    decoder := c.decoder.reset
    halted := true
    mailbox := c.mailbox.close })

/-! ### Sending and receiving -/

/-- The consent that a message needs (`ensure_open`). -/
def checkOpen (c : Client) : Except Error Unit :=
  if c.phase.canSend then .ok ()
  else .error (.connectionClosed (c.received.map fun body => body.code.status))

/-- Takes the gate for a parcel that is consented to, and gives the bytes to send. -/
def enterGate (consent : Client → Except Error Unit) (parcel : Parcel) (c : Client) :
    Except Error Bytes × Client :=
  let (bytes, gate) := c.gate.emitIf (consent c) parcel
  match bytes with
  | .ok bytes => (.ok bytes, { c with gate := gate.hold })
  | .error e => (.error e, { c with gate })

/-- A parcel that is consented to gets a frame under some key, and the gate is held. -/
theorem enterGate_granted {consent : Client → Except Error Unit} {c : Client}
    (granted : consent c = .ok ()) (parcel : Parcel) :
    ∃ key masks, c.enterGate consent parcel =
      (.ok (parcel.encode key), { c with gate := ⟨masks, true⟩ }) := by
  refine ⟨c.gate.masks.next.1, c.gate.masks.next.2, ?_⟩
  simp only [enterGate, Gate.emitIf, granted, Gate.emit, Gate.hold]

theorem enterGate_refused {consent : Client → Except Error Unit} {c : Client} {e : Error}
    (refused : consent c = .error e) (parcel : Parcel) :
    c.enterGate consent parcel = (.error e, c) := by
  simp only [enterGate, Gate.emitIf, refused]

def leaveGate (c : Client) : Client := { c with gate := c.gate.release }

theorem leaveGate_held (c : Client) (masks : MaskSource) :
    leaveGate { c with gate := ⟨masks, true⟩ } = { c with gate := ⟨masks, false⟩ } := rfl

/-- Takes the bytes of a delivery and gives the events they complete and the error they end in, as
`on_received` does before it dispatches. A close or an error is the last thing that counts. -/
def absorb (data : Bytes) (c : Client) : (List Event × Option Error) × Client :=
  if c.phase = .closed ∨ c.halted then (([], none), c)
  else
    let drained := (c.decoder.feed data).drainToClose
    ((drained.events, drained.fault),
      { c with
        decoder := drained.decoder
        halted := drained.fault.isSome || drained.events.any Event.isClose })

theorem absorb_idle {c : Client} (idle : c.phase = .closed ∨ c.halted = true) (data : Bytes) :
    c.absorb data = (([], none), c) := by
  simp only [absorb, if_pos idle]

theorem absorb_active {c : Client} (active : c.phase ≠ .closed) (listening : c.halted = false)
    (data : Bytes) :
    c.absorb data =
      (((c.decoder.feed data).drainToClose.events, (c.decoder.feed data).drainToClose.fault),
        { c with
          decoder := (c.decoder.feed data).drainToClose.decoder
          halted := (c.decoder.feed data).drainToClose.fault.isSome ||
            (c.decoder.feed data).drainToClose.events.any Event.isClose }) := by
  have goesOn : ¬(c.phase = .closed ∨ c.halted = true) := by simp [active, listening]
  simp only [absorb, if_neg goesOn]

theorem absorb_eq (data : Bytes) (c : Client) :
    (c.absorb data).2 =
      { c with decoder := (c.absorb data).2.decoder, halted := (c.absorb data).2.halted } := by
  unfold absorb
  split
  · rfl
  · rfl

theorem absorb_phase (data : Bytes) (c : Client) : (c.absorb data).2.phase = c.phase := by
  rw [absorb_eq]
  rfl

theorem absorb_gate (data : Bytes) (c : Client) : (c.absorb data).2.gate = c.gate := by
  rw [absorb_eq]

def enqueue (message : Message) (c : Client) : Client :=
  { c with mailbox := c.mailbox.push message }

def dequeue (c : Client) : Option Message × Client :=
  let (message, mailbox) := c.mailbox.pop
  (message, { c with mailbox })

end Client

end WebSocket
