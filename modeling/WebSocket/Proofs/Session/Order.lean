import WebSocket.Proofs.Session.Discipline

/-!
# Every call keeps the order of frames

Each action of a client keeps the discipline, and so does every session. The close of an attempt may
come from any of five decisions (`tame_closing`), and all of them are alike: the negotiation calls
for a close only where the connection was open, and leaves it closing.
-/

namespace WebSocket

open WebSocket.Action

variable {α β : Type}

theorem tame_step {f : Client → α × Client} (stroke : ∀ c, Stroke c (f c).2) : (step f).Tame :=
  tame_of_plain (every_step fun c _ => stroke c)

theorem tame_request {r : Request} (other : r.frame? = none) : (request r).Tame :=
  tame_of_plain (every_request other)

theorem tame_get : get.Tame := tame_of_plain (every_get fun _ _ => .of .look rfl)

theorem tame_of_apart {x : Action α} (apart : x.Apart fun _ => False) : x.Tame :=
  tame_of_plain apart.regular.plain

theorem tame_of_links {x : Action α} (links : x.Links fun _ => False) : x.Tame :=
  tame_of_apart links.apart

/-- A step that may decide on a close, and what is done about it. -/
theorem tame_closing {f : Client → α × Client} {k : α → Action β} (orders : α → Prop)
    (stroke : ∀ c, Stroke c (f c).2)
    (ordered : ∀ c, orders (f c).1 → c.phase = .opened ∧ (f c).2.phase.isClosing)
    (due : ∀ v, orders v → (k v).Does discipline Due)
    (quiet : ∀ v, ¬orders v → (k v).Tame) : (step f >>= k).Tame := by
  intro c h disciplined
  refine assures_bind.mpr (assures_step.mpr ?_)
  have kept : (f c).2.gate.isHeld = c.gate.isHeld := congrArg Gate.isHeld (stroke c).untouched.gate
  by_cases called : orders (f c).1
  · obtain ⟨opened, closing⟩ := ordered c called
    obtain ⟨outlook, trace, flowing, -⟩ := disciplined.trace
    cases flowing opened
    refine (due _ called).after ⟨?_, closing⟩ kept
    have quiet : Phase.signal? c.phase (f c).2.phase = none := by
      rw [opened]
      generalize (f c).2.phase = after at *
      cases after <;> rfl
    simp only [signals, Moment.signal?, quiet, Option.toList_none, List.append_nil]
    exact trace
  · exact (quiet _ called).after (disciplined.stroke (stroke c)) kept

namespace Client

/-! ### Messages -/

theorem does_transmitAsync (consent : Client → Except Error Unit) (parcel : Parcel) :
    (transmitAsync consent parcel).Does discipline (Cleared consent parcel) :=
  does_throughGate handsOver_sendAsync

theorem does_transmit (consent : Client → Except Error Unit) (parcel : Parcel)
    (limit : Option Duration) :
    (transmit consent parcel limit).Does discipline (Cleared consent parcel) := by
  intro c h cleared
  refine assures_bind.mpr (assures_get.mpr ?_)
  refine (does_bind (does_throughGate (handsOver_transmitWithin _)) fun sent => ?_).after
    cleared.look rfl
  split
  · exact does_pure _
  · exact does_pure _
  · exact does_bind (tame_of_links (links_transportFailed _)) fun _ => does_pure _

theorem tame_send (what : Outgoing) (limit : Option Duration) : (send what limit).Tame :=
  fun c h disciplined => does_transmit _ _ limit c h
    (cleared_message (by cases what <;> rfl) disciplined)

theorem tame_sendAsync (what : Outgoing) : (sendAsync what).Tame :=
  fun c h disciplined => does_transmitAsync _ _ c h
    (cleared_message (by cases what <;> rfl) disciplined)

/-! ### Closes -/

theorem does_announceClose (status : UInt16) : (announceClose status).Does discipline Due :=
  does_discard fun c h due => does_transmitAsync _ _ c h (cleared_close due)

theorem closeLocally_due {c : Client} {status : UInt16} (due : (c.closeLocally status).1 = true) :
    c.phase = .opened ∧ (c.closeLocally status).2.phase.isClosing := by
  unfold closeLocally Negotiation.closeLocally at *
  unfold phase
  cases before : c.negotiation.phase <;> simp_all [Phase.isClosing]

theorem beginDisconnect_due {c : Client} (due : c.beginDisconnect.1 = some true) :
    c.phase = .opened ∧ c.beginDisconnect.2.phase.isClosing := by
  unfold beginDisconnect at *
  split at due
  · cases due
  · rw [if_neg ‹_›]
    exact closeLocally_due (Option.some.inj due)

theorem beginClose_due {c : Client} {code : CloseCode} {status : UInt16}
    (due : (c.beginClose code).1 = .ok (some status)) :
    c.phase = .opened ∧ (c.beginClose code).2.phase.isClosing := by
  unfold beginClose at *
  split at due
  · cases due
  · rw [if_neg ‹_›]
    cases before : c.phase with
    | opened =>
      have ordered : (c.closeLocally code.status).1 = true := by
        rw [phase] at before
        simp only [closeLocally, Negotiation.closeLocally, before]
      exact ⟨rfl, (closeLocally_due ordered).2⟩
    | _ => simp [before] at due

theorem closeRemotely_due {c : Client} {body : Option CloseBody} {status : UInt16}
    (due : (c.closeRemotely body).1 = .echo status) :
    c.phase = .opened ∧ (c.closeRemotely body).2.phase.isClosing := by
  unfold closeRemotely Negotiation.closeRemotely at *
  unfold phase
  cases before : c.negotiation.phase <;> simp_all [Phase.isClosing]

theorem tame_beginDisconnect {k : Option Bool → Action β} (nothing : (k none).Tame)
    (quiet : (k (some false)).Tame) (due : (k (some true)).Does discipline Due) :
    (step beginDisconnect >>= k).Tame := by
  refine tame_closing (· = some true) (fun _ => .of .beginDisconnect rfl) ?_ ?_ ?_
  · intro c ordered
    exact beginDisconnect_due ordered
  · rintro _ rfl
    exact due
  · rintro (_ | _ | _) notDue
    · exact nothing
    · exact quiet
    · exact absurd rfl notDue

theorem tame_disconnectAsync : disconnectAsync.Tame := by
  refine tame_beginDisconnect (does_pure false) (tame_request rfl) ?_
  exact does_bind (does_announceClose _) fun _ => tame_request rfl

theorem tame_disconnect : disconnect.Tame := by
  refine tame_beginDisconnect (does_pure false) (tame_request rfl) ?_
  refine does_bind (does_discard ?_) fun _ => tame_request rfl
  intro c h due
  exact does_throughGate handsOver_send c h (cleared_close due)

theorem tame_beginClose {code : CloseCode} {k : Except Error (Option UInt16) → Action β}
    (refused : ∀ e, (k (.error e)).Tame) (quiet : (k (.ok none)).Tame)
    (due : ∀ status, (k (.ok (some status))).Does discipline Due) :
    (step (beginClose code) >>= k).Tame := by
  refine tame_closing (∃ status, · = .ok (some status)) (fun _ => .of (.beginClose code) rfl)
    ?_ ?_ ?_
  · rintro c ⟨status, ordered⟩
    exact beginClose_due ordered
  · rintro _ ⟨status, rfl⟩
    exact due status
  · rintro (e | _ | status) notDue
    · exact refused e
    · exact quiet
    · exact absurd ⟨status, rfl⟩ notDue

theorem tame_sendClose (code : CloseCode) (reason : String) (limit : Option Duration) :
    (sendClose code reason limit).Tame := by
  refine tame_beginClose (fun e => does_pure _) (does_pure _) ?_
  intro status c h due
  exact does_transmit _ _ limit c h (cleared_close due)

theorem tame_sendCloseAsync (code : CloseCode) (reason : String) :
    (sendCloseAsync code reason).Tame := by
  refine tame_beginClose (fun e => does_pure _) (does_pure _) ?_
  intro status c h due
  exact does_transmitAsync _ _ c h (cleared_close due)

theorem tame_connect (key : HandshakeKey) : (connect key).Tame := by
  apply does_bind (tame_step fun _ => .of (.beginConnect key true) rfl)
  intro begun
  split
  · apply does_bind (tame_request rfl)
    intro taken
    split
    · have aborts : (modify abortConnect).Tame :=
        tame_of_plain (every_modify fun _ _ => .of .abortConnect rfl)
      exact does_bind aborts fun _ => does_pure _
    · apply does_bind (tame_of_links links_awaitHandshake)
      intro _
      apply does_bind (tame_step fun _ => .of .stopAwaiting rfl)
      intro phase
      split
      · exact does_bind (does_discard tame_disconnectAsync) fun _ => does_pure _
      · exact does_pure _
  · exact does_pure _

/-! ### What arrives -/

theorem tame_remoteClose (body : Option CloseBody) : (remoteClose body).Tame := by
  apply does_bind (tame_of_plain (plain_notify _))
  intro _
  refine tame_closing (∃ status, · = .echo status) (fun _ => .of (.closeRemotely body) rfl)
    (fun _ ⟨_, due⟩ => closeRemotely_due due) ?_ ?_
  · rintro _ ⟨status, rfl⟩
    exact does_bind (does_announceClose status) fun _ => does_discard (tame_request rfl)
  · rintro (status | _ | _) notDue
    · exact absurd ⟨_, rfl⟩ notDue
    · exact does_discard (tame_request rfl)
    · exact does_pure _

theorem tame_protocolFault (e : Error) : (protocolFault e).Tame := by
  apply does_bind (tame_of_plain (plain_notify _))
  intro _
  refine tame_closing (· = true) (fun _ => .of (.closeLocally e.closeStatus) rfl)
    (fun _ due => closeLocally_due due) ?_ ?_
  · rintro _ rfl
    exact does_bind (does_announceClose _) fun _ => does_discard (tame_request rfl)
  · rintro (_ | _) notDue
    · exact does_discard (tame_request rfl)
    · exact absurd rfl notDue

theorem tame_dispatch (event : Event) : (dispatch event).Tame := by
  cases event with
  | message message => exact tame_of_plain (acts_handOver message).routinely.regular.plain
  | ping payload =>
    apply does_bind tame_get
    intro c
    have told : (notify (.ping payload)).Tame := tame_of_plain (plain_notify _)
    split
    · exact does_bind (does_discard (tame_sendAsync _)) fun _ => told
    · exact told
  | pong payload => exact tame_of_plain (plain_notify _)
  | close body => exact tame_remoteClose body

theorem tame_dispatchAll (events : List Event) : (dispatchAll events).Tame := by
  induction events with
  | nil => exact does_pure ()
  | cons event later ih => exact does_bind (tame_dispatch event) fun _ => ih

theorem tame_actOn (read : List Event × Option Error) : (actOn read).Tame := by
  apply does_bind (tame_dispatchAll _)
  intro _
  split
  · exact tame_protocolFault _
  · exact does_pure ()

theorem tame_bytesArrived (data : Bytes) : (bytesArrived data).Tame := by
  refine does_bind (fun c h disciplined => assures_step.mpr ?_) tame_actOn
  have phase := absorb_phase data c
  exact ⟨disciplined.of_same phase (signals_changed_same phase h),
    congrArg Gate.isHeld (absorb_gate data c)⟩

end Client

/-! ### Sessions -/

theorem Call.tame (call : Call) : call.action.Tame := by
  cases call with
  | connect key => exact does_map (Client.tame_connect key)
  | connectAsync key => exact does_map (tame_of_links (Client.links_connectAsync key))
  | disconnect => exact does_map Client.tame_disconnect
  | disconnectAsync => exact does_map Client.tame_disconnectAsync
  | send what limit => exact does_map (Client.tame_send what limit)
  | sendAsync what => exact does_map (Client.tame_sendAsync what)
  | sendClose code reason limit => exact does_map (Client.tame_sendClose code reason limit)
  | sendCloseAsync code reason => exact does_map (Client.tame_sendCloseAsync code reason)
  | receive limit => exact does_map (tame_of_plain (Client.routinely_receive limit).regular.plain)
  | listen listener =>
    exact does_bind (tame_of_plain (every_modify fun _ _ => .of (.listen listener) rfl)) fun _ =>
      does_pure _
  | deliverTo receiver =>
    exact does_bind (tame_of_plain (every_modify fun _ _ => .of (.deliverTo receiver) rfl)) fun _ =>
      does_pure _
  | responseArrived response =>
    exact does_bind (tame_of_apart (Client.apart_responseArrived response)) fun _ => does_pure _
  | handshakeCompleted =>
    exact does_bind (tame_of_apart Client.apart_handshakeCompleted) fun _ => does_pure _
  | bytesArrived data => exact does_bind (Client.tame_bytesArrived data) fun _ => does_pure _
  | transportDown =>
    have down : Client.transportDown.Links fun _ => False :=
      Client.begins_transportDown.links fun _ => .of .disconnected rfl
    exact does_bind (tame_of_links down) fun _ => does_pure _
  | transportFailed reason =>
    exact does_bind (tame_of_links (Client.links_transportFailed reason)) fun _ => does_pure _

theorem Call.assured (call : Call) : call.Assured discipline :=
  Call.assured_of_does call.tame
    (fun _ h disciplined => ⟨disciplined.of_same rfl (signals_called call h), rfl⟩)
    fun reply _ h disciplined => ⟨disciplined.of_same rfl (signals_returned reply h), rfl⟩

/-- In every session the frames of each attempt are handed over in order: none before it is open,
then messages, pings and pongs, then at most one close, and nothing after it. -/
theorem orderly_of_reachable {config : Config} {seed : UInt32} {s : Session}
    (reachable : Session.Reachable config seed s) : Orderly (signals s.history) := by
  have start : Disciplined (.ofConfig config seed) [] :=
    ⟨.none, .none, by simp [Client.phase, Client.ofConfig], by simp [Client.phase, Client.ofConfig]⟩
  have sound := Session.sound_of_assured Call.assured start reachable
  obtain ⟨outlook, trace, -, -⟩ := sound.holds.trace
  exact trace.orderly

/-- A connection that the server closes while a message is on its way, and another attempt. -/
def twoAttempts : List Choice :=
  [.call (.connectAsync (.ofNonce [])), .answer Request.takenUp, .call .handshakeCompleted,
    .call (.sendAsync (.text "hello")), .call (.bytesArrived [0x81, 0x01, 0x68]),
    .answer Request.takenUp, .call (.bytesArrived [0x88, 0x02, 0x03, 0xE8]),
    .answer Request.takenUp, .call .transportDown, .answer Request.takenUp,
    .call (.connectAsync (.ofNonce []))]

theorem orderly_of_reachable_twoAttempts :
    ∃ s, Session.after twoAttempts (.ofConfig {} 0) = some s ∧
      signals s.history =
        [.begun, .opened, .frame (some .text), .frame (some .close), .begun] ∧
      Orderly (signals s.history) := by
  have played : (Session.after twoAttempts (.ofConfig {} 0)).map (fun s => signals s.history) =
      some [.begun, .opened, .frame (some .text), .frame (some .close), .begun] := by
    decide +kernel
  obtain ⟨s, made, order⟩ := Option.map_eq_some_iff.mp played
  exact ⟨s, made, order, orderly_of_reachable (.after .start made)⟩

end WebSocket
