import WebSocket.Client.Call
import WebSocket.Proofs.Decoder.Control
import WebSocket.Proofs.Session.Composition

/-!
# What each call is composed of

Every call is composed of strokes and of reading, and it sends the parcels that belong to it
(`Call.composed`). Only a delivery reads, at its start; what it does from then on is composed of few
strokes (`Client.acts_actOn`). Most calls have no part in the handshake (`Call.routinely`), and most
leave the messages alone (`Call.apart`).
-/

namespace WebSocket

open WebSocket.Action

variable {α : Type}

/-! ### Sorts of strokes and requests -/

/-- A stroke, or reading what arrived. -/
inductive Advance (c : Client) : Client → Prop
  | stroke {c' : Client} (stroke : Stroke c c') : Advance c c'
  | absorb (data : Bytes) : Advance c (c.absorb data).2

/-- Neither a frame nor a notice that the connection is open or that there is a fault. -/
def Request.isRoutine : Request → Bool
  | send _ | sendWithin .. | sendAsync _ | notify _ (.connected _) | notify _ (.error _) => false
  | connect | connectAsync | disconnect | disconnectAsync | notify .. | deliver .. => true

theorem Request.frame?_of_isRoutine {r : Request} (routine : r.isRoutine) : r.frame? = none := by
  cases r <;> first | rfl | cases routine

def Request.isDelivery : Request → Bool
  | deliver .. => true
  | _ => false

/-- A request that has no part in the handshake and gives nobody a message. -/
def Request.isLink (r : Request) : Prop := r.isRoutine ∧ r.isDelivery = false

theorem Request.isDelivery_of_frame {r : Request} {bytes : Bytes} (frame : r.frame? = some bytes) :
    r.isDelivery = false := by
  cases r <;> first | rfl | cases frame

/-! ### Sorts of actions -/

abbrev Action.Plain (x : Action α) : Prop :=
  x.Every (fun _ => True) Stroke fun r => r.frame? = none

abbrev Action.Made (x : Action α) : Prop := x.Every (fun _ => True) Change fun _ => True

abbrev Action.Handles (x : Action α) : Prop := x.Every (fun _ => True) Handling fun _ => True

theorem Action.Handles.made {x : Action α} (handles : x.Handles) : x.Made :=
  handles.mono (fun _ => id) (fun _ _ => Handling.change) fun _ _ => trivial

/-- An action with no part in the handshake, which sends parcels of some sort. -/
abbrev Action.Routinely (sends : Parcel → Prop) (x : Action α) : Prop :=
  x.Composed Routine (fun r => r.isRoutine) sends

/-- An action that acts on what was read. -/
abbrev Action.Acts (sends : Parcel → Prop) (x : Action α) : Prop :=
  x.Composed Handled (fun r => r.isRoutine) sends

abbrev Action.Regular (sends : Parcel → Prop) (x : Action α) : Prop :=
  x.Composed Stroke (fun r => r.frame? = none) sends

/-- An action that answers what was read and leaves the messages alone. -/
abbrev Action.Responds (sends : Parcel → Prop) (x : Action α) : Prop :=
  x.Composed ClosingStroke Request.isLink sends

/-- An action that has no part in the handshake and leaves the messages alone. -/
abbrev Action.Links (sends : Parcel → Prop) (x : Action α) : Prop :=
  x.Composed LinkStroke Request.isLink sends

/-- An action that leaves the messages alone. -/
abbrev Action.Apart (sends : Parcel → Prop) (x : Action α) : Prop :=
  x.Composed ApartStroke (fun r => r.frame? = none ∧ r.isDelivery = false) sends

section Sorts

variable {sends : Parcel → Prop} {x : Action α}

theorem Action.Acts.routinely (acts : x.Acts sends) : x.Routinely sends :=
  acts.mono (fun _ _ => .mono rfl) (fun _ => id) fun _ => id

theorem Action.Acts.handles (acts : x.Acts sends) : x.Handles :=
  acts.every (fun _ _ => .inl) (fun _ => .inl (.of .look rfl)) (fun _ _ _ _ => .inr)
    (fun _ _ => trivial) (fun _ _ => trivial) fun _ _ _ _ _ => trivial

theorem Action.Routinely.regular (routinely : x.Routinely sends) : x.Regular sends :=
  routinely.mono (fun _ _ => StrokeAmong.stroke) (fun _ => Request.frame?_of_isRoutine) fun _ => id

theorem Action.Responds.links (responds : x.Responds sends) : x.Links sends :=
  responds.mono (fun _ _ => .mono rfl) (fun _ => id) fun _ => id

theorem Action.Links.routinely (links : x.Links sends) : x.Routinely sends :=
  links.mono (fun _ _ => .mono rfl) (fun _ => And.left) fun _ => id

theorem Action.Links.apart (links : x.Links sends) : x.Apart sends :=
  links.mono (fun _ _ => .mono rfl) (fun _ ⟨routine, other⟩ =>
    ⟨Request.frame?_of_isRoutine routine, other⟩) fun _ => id

theorem Action.Apart.regular (apart : x.Apart sends) : x.Regular sends :=
  apart.mono (fun _ _ => StrokeAmong.stroke) (fun _ => And.left) fun _ => id

/-- An action that begins with a step and goes on with no part in the handshake, and which leaves
the messages alone. -/
def Action.Begins {β : Type} (f : Client → β × Client) (sends : Parcel → Prop) (x : Action α) :
    Prop :=
  ∃ k, x = step f >>= k ∧ ∀ v, (k v).Links sends

theorem Action.Begins.links {β : Type} {f : Client → β × Client} (begins : x.Begins f sends)
    (strokes : ∀ c, LinkStroke c (f c).2) : x.Links sends := by
  obtain ⟨k, rfl, later⟩ := begins
  exact composed_bind (composed_step strokes) later

theorem Action.Begins.map {β γ : Type} {f : Client → β × Client} (begins : x.Begins f sends)
    (g : α → γ) : (g <$> x).Begins f sends := by
  obtain ⟨k, rfl, later⟩ := begins
  exact ⟨fun v => g <$> k v, bind_assoc _ _ _, fun v => composed_map (later v)⟩

theorem Action.Regular.made (regular : x.Regular sends) : x.Made :=
  regular.every (fun _ _ => .inl) (fun _ => .inl (.of .look rfl)) (fun _ _ _ _ => .inr)
    (fun _ _ => trivial) (fun _ _ => trivial) fun _ _ _ _ _ => trivial

theorem Action.Regular.plain (regular : x.Regular fun _ => False) : x.Plain :=
  regular.every (fun _ _ => id) (fun _ => .of .look rfl) (fun _ => False.elim) (fun _ => id)
    (fun _ _ => rfl) fun _ _ _ => False.elim

end Sorts

def Event.message? : Event → Option Message
  | message content => some content
  | ping _ | pong _ | close _ => none

/-- The parcel that may answer an event. -/
inductive Event.AnsweredBy : Event → Parcel → Prop
  | pong (payload : Bytes) : (Event.ping payload).AnsweredBy (Outgoing.pong payload).parcel
  | close (body : Option CloseBody) :
    (Event.close body).AnsweredBy (closeParcel (Negotiation.answerStatus body) [])

/-- A notice of what the server sent. -/
def Notice.isOfPeer : Notice → Bool
  | ping _ | pong _ | close _ => true
  | connected _ | disconnected | error _ => false

namespace Client

variable {stroke : Client → Client → Prop} {asks : Request → Prop} {sends : Parcel → Prop}

theorem composed_notify (look : ∀ c, stroke c c) {notice : Notice}
    (tells : ∀ listener, asks (.notify listener notice)) :
    (notify notice).Composed stroke asks sends := by
  apply composed_bind (composed_get look)
  intro c
  split
  · exact composed_request (tells _)
  · exact composed_pure ()

theorem composed_transmitAsync (consent : Client → Except Error Unit) {parcel : Parcel}
    (sent : sends parcel) : (transmitAsync consent parcel).Composed stroke asks sends :=
  composed_gate sent handsOver_sendAsync

theorem composed_announceClose {status : UInt16} (sent : sends (closeParcel status [])) :
    (announceClose status).Composed stroke asks sends :=
  composed_discard (composed_transmitAsync _ sent)

/-! ### Acting on what was read -/

theorem every_handOver {possible : Client → Prop} {change : Client → Client → Prop}
    {message : Message} (same : ∀ c, possible c → change c c)
    (delivers : ∀ receiver, asks (.deliver receiver message))
    (enqueues : ∀ c, possible c → change c (c.enqueue message)) :
    (handOver message).Every possible change asks := by
  apply every_bind (every_get same)
  intro c
  split
  · exact every_request (delivers _)
  · exact every_modify enqueues

theorem composed_handOver (message : Message) (look : ∀ c, stroke c c)
    (delivers : ∀ receiver, asks (.deliver receiver message))
    (enqueues : ∀ c, stroke c (c.enqueue message)) :
    (handOver message).Composed stroke asks sends := by
  apply composed_bind (composed_get look)
  intro c
  split
  · exact composed_request (delivers _)
  · exact composed_modify enqueues

theorem status_closeRemotely {body : Option CloseBody} {c : Client} {status : UInt16}
    (echoes : (c.closeRemotely body).1 = .echo status) :
    status = Negotiation.answerStatus body := by
  obtain ⟨config, ⟨phase, sent, received⟩, rest⟩ := c
  cases phase <;> cases echoes
  rfl

theorem phase_closeLocally (status : UInt16) (c : Client) :
    (c.closeLocally status).2.phase ≠ .connecting := by
  obtain ⟨config, ⟨phase, sent, received⟩, rest⟩ := c
  cases phase <;> exact nofun

/-- What it takes to answer what was read. Only a message takes more. -/
structure Answers (stroke : Client → Client → Prop) (asks : Request → Prop) : Prop where
  look : ∀ c, stroke c c
  closeLocally : ∀ status c, stroke c (c.closeLocally status).2
  closeRemotely : ∀ body c, stroke c (c.closeRemotely body).2
  tells : ∀ listener notice, notice.isOfPeer → asks (.notify listener notice)
  down : asks .disconnectAsync

section Answering

variable (answers : Answers stroke asks)

include answers

theorem composed_remoteClose (body : Option CloseBody)
    (closes : sends (closeParcel (Negotiation.answerStatus body) [])) :
    (remoteClose body).Composed stroke asks sends := by
  apply composed_bind (composed_notify answers.look fun _ => answers.tells _ _ rfl)
  intro _
  apply composed_step_bind (answers.closeRemotely body)
  intro c
  have down : (discard (request .disconnectAsync)).Composed stroke asks sends :=
    composed_discard (composed_request answers.down)
  split
  · rename_i status echoes
    rw [status_closeRemotely echoes]
    exact composed_bind (composed_announceClose closes) fun _ => down
  · exact down
  · exact composed_pure ()

theorem composed_protocolFault (e : Error) (closes : sends (closeParcel e.closeStatus [])) :
    (protocolFault e).Composed stroke asks sends := by
  refine .fault (answers.closeLocally e.closeStatus) (phase_closeLocally _) fun mustSend => ?_
  have down : (discard (request .disconnectAsync)).Composed stroke asks sends :=
    composed_discard (composed_request answers.down)
  split
  · exact composed_bind (composed_announceClose closes) fun _ => down
  · exact down

theorem composed_dispatch {event : Event}
    (handsOver : ∀ message, event = .message message →
      (handOver message).Composed stroke asks sends)
    (answered : ∀ parcel, event.AnsweredBy parcel → sends parcel) :
    (dispatch event).Composed stroke asks sends := by
  cases event with
  | message message => exact handsOver message rfl
  | ping payload =>
    apply composed_bind (composed_get answers.look)
    intro c
    have told : (notify (.ping payload)).Composed stroke asks sends :=
      composed_notify answers.look fun _ => answers.tells _ _ rfl
    have sent := answered _ (.pong payload)
    split
    · exact composed_bind (composed_discard (composed_transmitAsync _ sent)) fun _ => told
    · exact told
  | pong payload => exact composed_notify answers.look fun _ => answers.tells _ _ rfl
  | close body => exact composed_remoteClose answers body (answered _ (.close body))

variable (handsOver : ∀ message, (handOver message).Composed stroke asks sends)

include handsOver

theorem composed_dispatchAll {events : List Event}
    (answered : ∀ event ∈ events, ∀ parcel, event.AnsweredBy parcel → sends parcel) :
    (dispatchAll events).Composed stroke asks sends := by
  induction events with
  | nil => exact composed_pure ()
  | cons event later ih =>
    have first : (dispatch event).Composed stroke asks sends :=
      composed_dispatch answers (fun message _ => handsOver message)
        (answered event List.mem_cons_self)
    exact composed_bind first fun _ => ih fun other isIn =>
      answered other (List.mem_cons_of_mem _ isIn)

/-- Of what was read only pings and the end of the connection make the client send something. -/
theorem composed_actOn {read : List Event × Option Error}
    (answered : ∀ event ∈ read.1, ∀ parcel, event.AnsweredBy parcel → sends parcel)
    (closes : ∀ e, read.2 = some e → sends (closeParcel e.closeStatus [])) :
    (actOn read).Composed stroke asks sends := by
  apply composed_bind (composed_dispatchAll answers handsOver answered)
  intro _
  split
  · exact composed_protocolFault answers _ (closes _ ‹_›)
  · exact composed_pure ()

end Answering

theorem answers_among {concerns : List Concern} (ending : concerns.contains .ending)
    (tells : ∀ listener notice, notice.isOfPeer → asks (.notify listener notice))
    (down : asks .disconnectAsync) : Answers (StrokeAmong concerns) asks where
  look _ := .of .look ending
  closeLocally status _ := .of (.closeLocally status) ending
  closeRemotely body _ := .of (.closeRemotely body) ending
  tells := tells
  down := down

theorem answers_closing : Answers ClosingStroke Request.isLink := by
  refine answers_among rfl (fun _ notice ofPeer => ?_) ⟨rfl, rfl⟩
  cases notice <;> first | exact ⟨rfl, rfl⟩ | cases ofPeer

theorem answers_handled : Answers Handled fun r => r.isRoutine :=
  answers_among rfl (fun _ _ ofPeer => (answers_closing.tells _ _ ofPeer).1) rfl

/-- Only a message changes what waits. -/
theorem responds_dispatch {event : Event} (other : event.message? = none)
    (answered : ∀ parcel, event.AnsweredBy parcel → sends parcel) :
    (dispatch event).Responds sends := by
  refine composed_dispatch answers_closing ?_ answered
  rintro message rfl
  cases other

theorem acts_handOver (message : Message) : (handOver message).Acts sends :=
  composed_handOver message (fun _ => .of .look rfl) (fun _ => rfl)
    fun _ => .of (.enqueue message) rfl

theorem acts_dispatch {event : Event}
    (answered : ∀ parcel, event.AnsweredBy parcel → sends parcel) : (dispatch event).Acts sends :=
  composed_dispatch answers_handled (fun message _ => acts_handOver message) answered

theorem acts_dispatchAll {events : List Event}
    (answered : ∀ event ∈ events, ∀ parcel, event.AnsweredBy parcel → sends parcel) :
    (dispatchAll events).Acts sends :=
  composed_dispatchAll answers_handled acts_handOver answered

theorem acts_actOn {read : List Event × Option Error}
    (answered : ∀ event ∈ read.1, ∀ parcel, event.AnsweredBy parcel → sends parcel)
    (closes : ∀ e, read.2 = some e → sends (closeParcel e.closeStatus [])) :
    (actOn read).Acts sends :=
  composed_actOn answers_handled acts_handOver answered closes

theorem handles_actOn (read : List Event × Option Error) : (actOn read).Handles := by
  have acts : (actOn read).Acts fun _ => True :=
    acts_actOn (fun _ _ _ _ => trivial) fun _ _ => trivial
  exact acts.handles

theorem every_bytesArrived {possible : Client → Prop} {change : Client → Client → Prop}
    {data : Bytes} (reads : ∀ c, possible c → change c (c.absorb data).2)
    (acts : ∀ read, (actOn read).Every possible change asks) :
    (bytesArrived data).Every possible change asks :=
  every_bind (every_step reads) acts

/-! ### Connecting and the end of a connection -/

theorem plain_notify (notice : Notice) : (notify notice).Plain :=
  every_notify (fun _ _ => .of .look rfl) fun _ => rfl

theorem links_notify {notice : Notice}
    (routine : ∀ listener, (Request.notify listener notice).isRoutine) :
    (notify notice).Links sends :=
  composed_notify (fun _ => .of .look rfl) fun listener => ⟨routine listener, rfl⟩

theorem begins_transportDown : transportDown.Begins disconnected sends := by
  refine ⟨_, rfl, fun changed => ?_⟩
  split
  · exact links_notify fun _ => rfl
  · exact composed_pure ()

theorem closed_disconnected (c : Client) : c.disconnected.2.phase = .closed := by
  obtain ⟨config, ⟨phase, sent, received⟩, rest⟩ := c
  cases phase <;> rfl

theorem disconnected_closed {c : Client} (closed : c.phase = .closed) :
    c.disconnected.1 = false := by
  rw [phase] at closed
  simp only [disconnected, Negotiation.disconnect, if_pos closed]

theorem disconnected_active {c : Client} (active : c.phase ≠ .closed) :
    c.disconnected.1 = true := by
  rw [phase] at active
  simp only [disconnected, Negotiation.disconnect, if_neg active]

theorem phase_disconnected (c : Client) : c.disconnected.2.phase ≠ .connecting := by
  rw [closed_disconnected]
  exact nofun

theorem links_transportFailed (reason : String) : (transportFailed reason).Links sends := by
  refine .fault (fun _ => .of .disconnected rfl) phase_disconnected fun changed => ?_
  split
  · exact links_notify fun _ => rfl
  · exact composed_pure ()

theorem routinely_receive (limit : Option Duration) : (receive limit).Routinely sends :=
  composed_bind (composed_get fun _ => .of .look rfl) fun _ =>
    composed_bind (composed_waitFor _ _) fun _ => composed_step fun _ => .of .dequeue rfl

theorem links_awaitHandshake : awaitHandshake.Links sends := by
  have look : get.Links sends := composed_get fun _ => .of .look rfl
  apply composed_bind look
  intro c
  split
  · exact composed_bind look fun _ => composed_waitFor _ _
  · exact composed_pure ()

theorem links_connectAsync (key : HandshakeKey) : (connectAsync key).Links sends := by
  apply composed_bind (composed_step fun _ => .of (.beginConnect key false) rfl)
  intro begun
  split
  · refine composed_bind (composed_request ⟨rfl, rfl⟩) fun taken => ?_
    split
    · exact composed_pure _
    · exact composed_bind (composed_modify fun _ => .of .abortConnect rfl) fun _ => composed_pure _
  · exact composed_pure _

theorem apart_responseArrived (response : UpgradeResponse) :
    (responseArrived response).Apart sends := by
  apply composed_bind (composed_step fun _ => .of (.judgeResponse response) rfl)
  intro judged
  split
  · exact composed_pure ()
  · exact composed_bind (composed_notify (fun _ => .of .look rfl) fun _ => ⟨rfl, rfl⟩)
      fun _ => composed_discard (composed_request ⟨rfl, rfl⟩)

theorem apart_handshakeCompleted : handshakeCompleted.Apart sends := by
  apply composed_bind (composed_step fun _ => .of .completeHandshake rfl)
  intro completed
  split
  · exact composed_pure ()
  · exact composed_notify (fun _ => .of .look rfl) fun _ => ⟨rfl, rfl⟩

/-! ### Sending -/

theorem links_transmit (consent : Client → Except Error Unit) {parcel : Parcel}
    (sent : sends parcel) (limit : Option Duration) :
    (transmit consent parcel limit).Links sends := by
  apply composed_bind (composed_get fun _ => .of .look rfl)
  intro c
  apply composed_bind (composed_gate sent (handsOver_transmitWithin _))
  intro answer
  split
  · exact composed_pure _
  · exact composed_pure _
  · exact composed_bind (links_transportFailed _) fun _ => composed_pure _

theorem status_beginClose {code : CloseCode} {c : Client} {status : UInt16}
    (begun : (c.beginClose code).1 = .ok (some status)) :
    code.isAllowed = true ∧ status = code.status := by
  unfold beginClose at begun
  cases allowed : code.isAllowed with
  | false => simp [allowed] at begun
  | true =>
    simp only [allowed, Bool.not_true, Bool.false_eq_true, if_false] at begun
    split at begun <;> cases begun
    exact ⟨rfl, rfl⟩

theorem links_sendClose {code : CloseCode} {reason : String}
    (sent : code.isAllowed = true → sends (closeParcel code.status (Bytes.ofString reason)))
    (limit : Option Duration) : (sendClose code reason limit).Links sends := by
  apply composed_step_bind fun _ => .of (.beginClose code) rfl
  intro c
  split
  · exact composed_pure _
  · exact composed_pure _
  · rename_i status begun
    obtain ⟨allowed, rfl⟩ := status_beginClose begun
    exact links_transmit _ (sent allowed) limit

theorem links_sendCloseAsync {code : CloseCode} {reason : String}
    (sent : code.isAllowed = true → sends (closeParcel code.status (Bytes.ofString reason))) :
    (sendCloseAsync code reason).Links sends := by
  apply composed_step_bind fun _ => .of (.beginClose code) rfl
  intro c
  split
  · exact composed_pure _
  · exact composed_pure _
  · rename_i status begun
    obtain ⟨allowed, rfl⟩ := status_beginClose begun
    exact composed_transmitAsync _ (sent allowed)

theorem begins_disconnect (sent : sends (closeParcel CloseCode.normal.status [])) :
    disconnect.Begins beginDisconnect sends := by
  refine ⟨_, rfl, fun begun => ?_⟩
  split
  · exact composed_pure _
  · have down : (request .disconnect).Links sends := composed_request ⟨rfl, rfl⟩
    split
    · exact composed_bind (composed_discard (composed_gate sent handsOver_send)) fun _ => down
    · exact down

theorem begins_disconnectAsync (sent : sends (closeParcel CloseCode.normal.status [])) :
    disconnectAsync.Begins beginDisconnect sends := by
  refine ⟨_, rfl, fun begun => ?_⟩
  split
  · exact composed_pure _
  · have down : (request .disconnectAsync).Links sends := composed_request ⟨rfl, rfl⟩
    split
    · exact composed_bind (composed_announceClose sent) fun _ => down
    · exact down

theorem apart_connect (key : HandshakeKey)
    (sent : sends (closeParcel CloseCode.normal.status [])) : (connect key).Apart sends := by
  apply composed_bind (composed_step fun _ => .of (.beginConnect key true) rfl)
  intro begun
  split
  · refine composed_bind (composed_request ⟨rfl, rfl⟩) fun taken => ?_
    split
    · exact composed_bind (composed_modify fun _ => .of .abortConnect rfl) fun _ => composed_pure _
    · apply composed_bind links_awaitHandshake.apart
      intro _
      apply composed_bind (composed_step fun _ => .of .stopAwaiting rfl)
      intro phase
      split
      · have ends := (begins_disconnectAsync sent).links fun _ => .of .beginDisconnect rfl
        exact composed_bind (composed_discard ends.apart) fun _ => composed_pure _
      · exact composed_pure _
  · exact composed_pure _

end Client

/-! ### Calls -/

def Call.isDelivery : Call → Bool
  | bytesArrived _ => true
  | _ => false

/-- The parcels that a call may send. What a delivery makes the client send is a pong that answers
a ping, or a close without a reason. -/
inductive Call.Sends : Call → Parcel → Prop
  | message (what : Outgoing) (limit : Option Duration) : (send what limit).Sends what.parcel
  | messageAsync (what : Outgoing) : (sendAsync what).Sends what.parcel
  | close (code : CloseCode) (reason : String) (limit : Option Duration) :
    (sendClose code reason limit).Sends (closeParcel code.status (Bytes.ofString reason))
  | closeAsync (code : CloseCode) (reason : String) :
    (sendCloseAsync code reason).Sends (closeParcel code.status (Bytes.ofString reason))
  | disconnect : Call.disconnect.Sends (closeParcel CloseCode.normal.status [])
  | disconnectAsync : Call.disconnectAsync.Sends (closeParcel CloseCode.normal.status [])
  | connect (key : HandshakeKey) :
    (Call.connect key).Sends (closeParcel CloseCode.normal.status [])
  | pong (data : Bytes) {payload : Bytes} (short : payload.length ≤ maxControlPayload) :
    (bytesArrived data).Sends (Outgoing.pong payload).parcel
  | answer (data : Bytes) (status : UInt16) : (bytesArrived data).Sends (closeParcel status [])

/-- A close has a status that may be sent, and a reason that is text. -/
def Parcel.Proper (parcel : Parcel) : Prop :=
  parcel.opcode = .close → ∃ (code : CloseCode) (reason : String), code.isAllowed = true ∧
    parcel = closeParcel code.status (Bytes.ofString reason)

theorem Outgoing.proper_parcel (what : Outgoing) : what.parcel.Proper := by
  cases what <;> exact nofun

theorem CloseCode.proper_closeParcel {code : CloseCode} (allowed : code.isAllowed = true)
    (reason : String) : (closeParcel code.status (Bytes.ofString reason)).Proper :=
  fun _ => ⟨code, reason, allowed, rfl⟩

theorem CloseCode.proper_bareClose {code : CloseCode} (allowed : code.isAllowed = true) :
    (closeParcel code.status []).Proper := CloseCode.proper_closeParcel allowed ""

theorem CloseCode.proper_normal : (closeParcel normal.status []).Proper := proper_bareClose rfl

theorem Error.proper_close (e : Error) : (closeParcel e.closeStatus []).Proper := by
  have protocolError : (closeParcel CloseCode.protocolError.status []).Proper :=
    CloseCode.proper_bareClose rfl
  have messageTooBig : (closeParcel CloseCode.messageTooBig.status []).Proper :=
    CloseCode.proper_bareClose rfl
  have invalidPayload : (closeParcel CloseCode.invalidPayload.status []).Proper :=
    CloseCode.proper_bareClose rfl
  cases e with
  | invalidUtf8 => exact invalidPayload
  | frameTooLarge | messageTooLarge | tooManyFragments => exact messageTooBig
  | _ => exact protocolError

theorem Event.Sendable.proper {event : Event} (sendable : event.Sendable) {parcel : Parcel}
    (answered : event.AnsweredBy parcel) : parcel.Proper := by
  cases answered with
  | pong payload => exact (Outgoing.pong payload).proper_parcel
  | close body =>
    cases body with
    | none => exact CloseCode.proper_normal
    | some body => exact CloseCode.proper_bareClose sendable

/-- The parcels that a call sends. -/
structure Call.Orders (call : Call) (parcel : Parcel) : Prop where
  sends : call.Sends parcel
  proper : parcel.Proper

/-- A call with no part in the handshake. -/
def Call.isRoutine : Call → Bool
  | connect _ | responseArrived _ | handshakeCompleted | bytesArrived _ => false
  | _ => true

/-- A call that takes no message, and neither gives one nor chooses who is given them. -/
def Call.isApart : Call → Bool
  | receive _ | deliverTo _ | bytesArrived _ => false
  | _ => true

theorem Call.links {call : Call} (routine : call.isRoutine) (apart : call.isApart) :
    call.action.Links call.Orders := by
  cases call with
  | connectAsync key => exact composed_map (Client.links_connectAsync key)
  | disconnect =>
    have ends : Client.disconnect.Begins Client.beginDisconnect Call.disconnect.Orders :=
      Client.begins_disconnect ⟨.disconnect, CloseCode.proper_normal⟩
    exact composed_map (ends.links fun _ => .of .beginDisconnect rfl)
  | disconnectAsync =>
    have ends : Client.disconnectAsync.Begins Client.beginDisconnect Call.disconnectAsync.Orders :=
      Client.begins_disconnectAsync ⟨.disconnectAsync, CloseCode.proper_normal⟩
    exact composed_map (ends.links fun _ => .of .beginDisconnect rfl)
  | send what limit =>
    exact composed_map
      (Client.links_transmit _ ⟨.message what limit, what.proper_parcel⟩ limit)
  | sendAsync what =>
    exact composed_map (Client.composed_transmitAsync _ ⟨.messageAsync what, what.proper_parcel⟩)
  | sendClose code reason limit =>
    exact composed_map (Client.links_sendClose (fun allowed =>
      ⟨.close code reason limit, code.proper_closeParcel allowed reason⟩) limit)
  | sendCloseAsync code reason =>
    exact composed_map (Client.links_sendCloseAsync fun allowed =>
      ⟨.closeAsync code reason, code.proper_closeParcel allowed reason⟩)
  | listen listener =>
    exact composed_bind (composed_modify fun _ => .of (.listen listener) rfl)
      fun _ => composed_pure _
  | transportDown =>
    exact composed_map (Client.begins_transportDown.links fun _ => .of .disconnected rfl)
  | transportFailed reason =>
    exact composed_bind (Client.links_transportFailed reason) fun _ => composed_pure _
  | connect | responseArrived | handshakeCompleted => cases routine
  | receive | deliverTo | bytesArrived => cases apart

theorem Call.routinely {call : Call} (routine : call.isRoutine) :
    call.action.Routinely call.Orders := by
  cases apart : call.isApart with
  | true => exact (Call.links routine apart).routinely
  | false =>
    cases call with
    | receive limit => exact composed_map (Client.routinely_receive limit)
    | deliverTo receiver =>
      exact composed_bind (composed_modify fun _ => .of (.deliverTo receiver) rfl)
        fun _ => composed_pure _
    | bytesArrived data => cases routine
    | _ => cases apart

theorem Call.apart {call : Call} (apart : call.isApart) : call.action.Apart call.Orders := by
  cases routine : call.isRoutine with
  | true => exact (Call.links routine apart).apart
  | false =>
    cases call with
    | connect key =>
      exact composed_map (Client.apart_connect key ⟨.connect key, CloseCode.proper_normal⟩)
    | responseArrived response =>
      exact composed_bind (Client.apart_responseArrived response) fun _ => composed_pure _
    | handshakeCompleted =>
      exact composed_bind Client.apart_handshakeCompleted fun _ => composed_pure _
    | bytesArrived data => cases apart
    | _ => cases routine

/-- A call that reads nothing is composed of strokes. -/
theorem Call.regular {call : Call} (other : call.isDelivery = false) :
    call.action.Regular call.Orders := by
  cases routine : call.isRoutine with
  | true => exact (Call.routinely routine).regular
  | false =>
    cases call with
    | connect | responseArrived | handshakeCompleted => exact (Call.apart rfl).regular
    | bytesArrived data => cases other
    | _ => cases routine

theorem Call.composed (call : Call) :
    call.action.Composed Advance (fun r => r.frame? = none) call.Orders := by
  have wider : ∀ c c', Stroke c c' → Advance c c' := fun _ _ => .stroke
  cases delivery : call.isDelivery with
  | false => exact (Call.regular delivery).mono wider (fun _ => id) fun _ => id
  | true =>
    cases call with
    | bytesArrived data =>
      apply composed_map
      apply composed_step_bind fun _ => .absorb data
      intro c
      have acts : (Client.actOn (c.absorb data).1).Acts (Call.bytesArrived data).Orders := by
        refine Client.acts_actOn (fun event isIn parcel answered => ⟨?_, ?_⟩) fun e _ =>
          ⟨.answer data e.closeStatus, e.proper_close⟩
        · have fits := c.fits_of_absorb data event isIn
          cases answered with
          | pong payload => exact .pong data fits
          | close body => exact .answer data _
        · exact (c.sendable_of_absorb data event isIn).proper answered
      exact acts.routinely.regular.mono wider (fun _ => id) fun _ => id
    | _ => cases delivery

end WebSocket
