import WebSocket.Proofs.Session.Vouching

/-!
# Openings are verified

Whoever calls a client, and whenever, a connection opens only through a verified handshake
(`verified_of_reachable`). Some calls leave an attempt whatever its state; two make the handshake: a
response is judged, and the transport reports that the handshake is complete.
-/

namespace WebSocket

open WebSocket.Action

/-! ### Calls that leave an attempt -/

theorem Action.Begins.vouches {α β : Type} {f : Client → β × Client} {sends : Parcel → Prop}
    {x : Action α} (begins : x.Begins f sends) (strokes : ∀ c, Routine c (f c).2)
    (leaves : ∀ c, (f c).2.phase ≠ .connecting) : x.Does vouching Recorded := by
  obtain ⟨k, rfl, later⟩ := begins
  intro c h recorded
  refine assures_bind.mpr (assures_step.mpr ?_)
  exact (later _).routinely.vouches.after (recorded.leave (strokes c).uneventful (leaves c))
    ⟨rfl, fun unresolved => absurd unresolved.1 (leaves c)⟩

theorem Client.phase_beginDisconnect (c : Client) : c.beginDisconnect.2.phase ≠ .connecting := by
  obtain ⟨config, ⟨phase, sent, received⟩, rest⟩ := c
  cases phase <;> exact nofun

theorem vouches_disconnectAsync : Client.disconnectAsync.Does vouching Recorded := by
  have begins : Client.disconnectAsync.Begins Client.beginDisconnect fun _ => True :=
    Client.begins_disconnectAsync trivial
  exact begins.vouches (fun _ => .of .beginDisconnect rfl) Client.phase_beginDisconnect

theorem vouches_connect (key : HandshakeKey) : (Client.connect key).Does vouching Vouched := by
  have begins : (step (Client.beginConnect key true)).Routinely fun _ => True :=
    composed_step fun _ => .of (.beginConnect key true) rfl
  apply does_bind begins.vouches
  intro begun
  split
  · have asks : (request .connect).Routinely fun _ => True := composed_request rfl
    apply does_bind asks.vouches
    intro taken
    split
    · have aborts : (Action.modify Client.abortConnect).Routinely fun _ => True :=
        composed_modify fun _ => .of .abortConnect rfl
      exact does_bind aborts.vouches fun _ => does_pure _
    · have awaits : Client.awaitHandshake.Links fun _ => True := Client.links_awaitHandshake
      apply does_bind awaits.routinely.vouches
      intro _ c h vouched
      refine assures_bind.mpr (assures_step.mpr ?_)
      -- Giving up is a setback; where the attempt is still connecting it is left at once.
      let c' := c.stopAwaiting.2
      have same : c'.phase = c.phase := rfl
      have goesOn := signal?_of_same same
      have recorded : Recorded c' (.changed c c' :: h) :=
        vouched.toRecorded.goesOn goesOn (isOpening_of_same same) rfl id
      have kept : vouching.keeps c h c' (.changed c c' :: h) := keeps_changed same id
      split
      · exact (does_bind (does_discard vouches_disconnectAsync) fun _ => does_pure _).after
          recorded kept
      · rename_i left
        exact ⟨⟨recorded, fun connecting => absurd connecting left⟩, kept⟩
  · exact does_pure _

/-! ### Calls that make the handshake -/

/-- A response has just arrived. -/
def Arriving (response : UpgradeResponse) (c : Client) (h' : List Moment) : Prop :=
  ∃ h, h' = .called (.responseArrived response) :: h ∧ Vouched c h

theorem Client.judgeResponse_of_ok {response : UpgradeResponse} {key : HandshakeKey} {c : Client}
    (connecting : c.phase = .connecting) (isKey : c.key = some key)
    (valid : response.validate key = .ok ()) :
    c.judgeResponse response = (none, { c with response := some response }) := by
  simp only [judgeResponse, connecting, isKey, valid, ne_eq, not_true, if_false]

theorem Client.judgeResponse_of_error {response : UpgradeResponse} {key : HandshakeKey}
    {c : Client} {e : Error} (connecting : c.phase = .connecting) (isKey : c.key = some key)
    (invalid : response.validate key = .error e) :
    c.judgeResponse response = (some e, { c with rejected := true }) := by
  simp only [judgeResponse, connecting, isKey, invalid, ne_eq, not_true, if_false]

section Judging

variable {c : Client} {h : List Moment} {response : UpgradeResponse}

theorem Handshaking.arrived (handshaking : Handshaking c h) :
    Handshaking c (.called (.responseArrived response) :: h) :=
  handshaking.cons (Moment.signal?_ne_begun rfl) rfl rfl rfl rfl rfl rfl rfl

theorem Vouched.arrived (vouched : Vouched c h)
    (valid : phaseAfter h = .connecting →
      ∃ key, attemptKey h = some key ∧ response.validate key = .ok ()) :
    Vouched c (.called (.responseArrived response) :: h) :=
  ⟨⟨.other vouched.verified rfl, vouched.phase,
    fun unrejected => (vouched.accepted unrejected).response valid, vouched.rejected⟩,
    fun connecting => (vouched.connecting connecting).arrived⟩

theorem Handshaking.judged (handshaking : Handshaking c h) (connecting : c.phase = .connecting)
    {c' : Client} (same : c'.phase = c.phase) (awaited : c'.awaited = c.awaited) :
    Handshaking c (.changed c c' :: .called (.responseArrived response) :: h) := by
  have goesOn := signal?_of_same same
  have unspoiled : (Moment.changed c c').isSetback = false := by
    simp [Moment.isSetback, same, connecting, awaited]
  exact handshaking.arrived.cons goesOn (if_neg goesOn) rfl rfl rfl unspoiled rfl rfl

theorem Vouched.kept (vouched : Vouched c h) (connecting : c.phase = .connecting)
    (valid : ∃ key, attemptKey h = some key ∧ response.validate key = .ok ()) :
    let c' : Client := { c with response := some response }
    Vouched c' (.changed c c' :: .called (.responseArrived response) :: h) := by
  intro c'
  have same : c'.phase = c.phase := rfl
  have goesOn := signal?_of_same same
  have recorded := (vouched.arrived fun _ => valid).toRecorded.goesOn goesOn
    (isOpening_of_same same) (Eq.refl c'.rejected) id
  obtain ⟨key, -, unspoiled, told⟩ := (vouched.connecting connecting).judged connecting same rfl
  refine ⟨recorded, fun _ => ⟨key, ?_, unspoiled, told⟩⟩
  rintro _ ⟨⟩
  refine handshake_subset goesOn _ ?_
  rw [handshake_cons (Moment.signal?_ne_begun rfl), if_pos (vouched.phase.trans connecting)]
  exact List.mem_cons_self

theorem Vouched.marked (vouched : Vouched c h) (connecting : c.phase = .connecting) :
    let c' : Client := { c with rejected := true }
    Vouched c' (.changed c c' :: .called (.responseArrived response) :: h) := by
  intro c'
  have same : c'.phase = c.phase := rfl
  obtain ⟨key, response, unspoiled, -⟩ :=
    (vouched.connecting connecting).judged connecting same rfl
  refine ⟨⟨.other (.other vouched.verified rfl) (isOpening_of_same same), rfl, nofun, fun _ => ?_⟩,
    fun _ => ⟨key, response, unspoiled, nofun⟩⟩
  rw [same, connecting]
  exact ⟨nofun, nofun⟩

theorem vouches_responseArrived (response : UpgradeResponse) :
    (Client.responseArrived response).Does vouching (Arriving response) := by
  rintro c _ ⟨h, rfl, vouched⟩
  refine assures_bind.mpr (assures_step.mpr ?_)
  by_cases connecting : c.phase = .connecting
  · obtain ⟨key, isKey, ofAttempt⟩ := (vouched.connecting connecting).key
    cases judged : response.validate key with
    | ok _ =>
      rw [Client.judgeResponse_of_ok connecting isKey judged]
      exact ⟨vouched.kept connecting ⟨key, ofAttempt, judged⟩, keeps_changed rfl id⟩
    | error e =>
      rw [Client.judgeResponse_of_error connecting isKey judged]
      -- The mark is set before the listener is told, so nothing opens the attempt meanwhile.
      let c' : Client := { c with rejected := true }
      have kept : vouching.keeps c (.called (.responseArrived response) :: h) c'
          (.changed c c' :: .called (.responseArrived response) :: h) := keeps_changed rfl nofun
      refine assures_bind.mpr ((assures_notify_error (vouched.marked connecting)).mono ?_)
      rintro _ c'' h'' ⟨-, told, resolved⟩
      obtain ⟨vouched'', noFault⟩ := resolved rfl
      have down : (discard (request .disconnectAsync)).Routinely fun _ => True :=
        composed_discard (composed_request rfl)
      exact down.vouches.after vouched'' ⟨told, fun unresolved => absurd unresolved noFault⟩
  · have same : c.judgeResponse response = (none, c) := if_pos connecting
    rw [same]
    have arrived : Vouched c (.called (.responseArrived response) :: h) :=
      vouched.arrived fun phase => absurd (vouched.phase.symm.trans phase) connecting
    exact arrived.change (.goesOn rfl rfl fun _ => ⟨rfl, rfl, rfl⟩)

end Judging

def Completing (c : Client) (h' : List Moment) : Prop :=
  ∃ h, h' = .called .handshakeCompleted :: h ∧ Vouched c h

theorem Client.completeHandshake_of_connecting {c : Client} (unrejected : c.rejected = false)
    (connecting : c.phase = .connecting) :
    ∃ c', c.completeHandshake = (some c.response, c') ∧ c'.phase = .opened ∧
      c'.rejected = false := by
  rw [phase] at connecting
  simp only [completeHandshake, unrejected, Negotiation.completeHandshake, connecting, if_true]
  exact ⟨_, rfl, rfl, rfl⟩

theorem Client.completeHandshake_of_rejected {c : Client} (rejected : c.rejected = true) :
    c.completeHandshake = (none, c) := if_pos rejected

theorem Client.completeHandshake_of_other {c : Client} (other : c.phase ≠ .connecting) :
    c.completeHandshake = (none, c) := by
  rw [phase] at other
  unfold completeHandshake Negotiation.completeHandshake
  split <;> rfl

theorem Vouched.opening {c c' : Client} {h : List Moment} (vouched : Vouched c h)
    (unrejected : c.rejected = false) (connecting : c.phase = .connecting)
    (opened : c'.phase = .opened) : Opening c c' h := by
  obtain ⟨-, response, unspoiled, told⟩ := vouched.connecting connecting
  exact ⟨⟨vouched.phase.trans connecting, connecting⟩, opened, vouched.accepted unrejected,
    response, unspoiled, told unrejected⟩

theorem vouched_opened {c : Client} {h : List Moment} (verified : Verified h)
    (phase : phaseAfter h = c.phase) (opened : c.phase = .opened)
    (unrejected : c.rejected = false) (accepted : Accepted h) : Vouched c h := by
  refine ⟨⟨verified, phase, fun _ => accepted, fun rejected => ?_⟩, fun connecting => ?_⟩
  · rw [unrejected] at rejected
    cases rejected
  · rw [opened] at connecting
    cases connecting

theorem assures_notify_connected {c c' : Client} {h : List Moment} (vouched : Vouched c h)
    (unrejected : c.rejected = false) (connecting : c.phase = .connecting)
    (opened : c'.phase = .opened) (stays : c'.rejected = false) :
    (Client.notify (.connected c.response)).Assures vouching
      (fun _ c'' h'' => Vouched c'' h'' ∧
        vouching.keeps c (.called .handshakeCompleted :: h) c'' h'')
      c' (.changed c c' :: .called .handshakeCompleted :: h) := by
  refine assures_bind.mpr (assures_get.mpr ?_)
  have opening := vouched.opening unrejected connecting opened
  have left : c'.phase ≠ .connecting := by
    rw [opened]
    decide
  have resolved : ∀ h', ¬Unresolved c' h' := fun _ unresolved => left unresolved.1
  have goesOn : (Moment.changed c c').signal? ≠ some .begun := Phase.signal?_ne_begun (.inr left)
  have still : (Moment.changed c' c').signal? ≠ some .begun := signal?_of_same rfl
  have called : Accepted (.called .handshakeCompleted :: h) :=
    (vouched.accepted unrejected).cons (Moment.signal?_ne_begun rfl) rfl nofun
  have changed : Accepted (.changed c c' :: .called .handshakeCompleted :: h) :=
    called.cons goesOn (if_neg goesOn) nofun
  have accepted := changed.cons still (if_neg still) nofun
  cases listener : c'.listener with
  | none =>
    have verified := vouched.verified.unheard opening listener
    exact ⟨vouched_opened verified rfl opened stays accepted, rfl,
      fun unresolved => absurd unresolved (resolved _)⟩
  | some listener' =>
    let telling := Request.notify listener' (.connected c.response)
    have verified := vouched.verified.heard opening listener
    have asked : Accepted (.asked telling :: .changed c' c' :: .changed c c' ::
        .called .handshakeCompleted :: h) :=
      accepted.cons (Moment.signal?_ne_begun rfl) rfl nofun
    refine ⟨vouched_opened verified rfl opened stays asked, fun answer c'' h'' vouched'' kept => ?_⟩
    have opens : vouching.keeps c (.called .handshakeCompleted :: h) c'
        (.asked telling :: .changed c' c' :: .changed c c' :: .called .handshakeCompleted :: h) :=
      ⟨rfl, fun unresolved => absurd unresolved (resolved _)⟩
    have answered := vouched''.quiet
      (Moment.quiet_answered (r := .notify listener' (.connected c.response)) nofun answer)
    exact ⟨answered.1, vouching.trans opens (vouching.trans kept answered.2)⟩

theorem vouches_handshakeCompleted : Client.handshakeCompleted.Does vouching Completing := by
  rintro c _ ⟨h, rfl, vouched⟩
  refine assures_bind.mpr (assures_step.mpr ?_)
  have quiet : (Moment.called .handshakeCompleted).Quiet :=
    ⟨⟨rfl, rfl, nofun⟩, rfl, rfl, fun _ => rfl⟩
  have looked := (vouched.quiet quiet).1.change (.goesOn rfl rfl fun _ => ⟨rfl, rfl, rfl⟩)
  cases rejected : c.rejected with
  | true =>
    rw [Client.completeHandshake_of_rejected rejected]
    exact looked
  | false =>
    by_cases connecting : c.phase = .connecting
    · obtain ⟨c', completed, opened, unrejected⟩ :=
        Client.completeHandshake_of_connecting rejected connecting
      rw [completed]
      exact assures_notify_connected vouched rejected connecting opened unrejected
    · rw [Client.completeHandshake_of_other connecting]
      exact looked

/-! ### Sessions -/

theorem vouches_bytesArrived (data : Bytes) :
    (Client.bytesArrived data).Does vouching Vouched := by
  apply does_bind (vouches_of_every (every_step fun c _ => c.uneventful_absorb data))
  intro read
  have acts : (Client.actOn read).Acts fun _ => True :=
    Client.acts_actOn (fun _ _ _ _ => trivial) fun _ _ => trivial
  exact acts.routinely.vouches

theorem Moment.quiet_returned (reply : Reply) : (returned reply).Quiet :=
  ⟨⟨rfl, rfl, nofun⟩, rfl, rfl, fun _ => rfl⟩

theorem Call.assured_of_vouches {call : Call} {start : Client → List Moment → Prop}
    (does : call.action.Does vouching start)
    (called : ∀ c h, Vouched c h → start c (.called call :: h))
    (unreported : ∀ h, telling (.called call :: h) = telling h) : call.Assured vouching :=
  Call.assured_of_does does
    (fun c h vouched => ⟨called c h vouched, unreported h, fun ⟨connecting, unrejected, faulted⟩ =>
      ⟨connecting, unrejected, reported_of_cons (Moment.signal?_ne_begun rfl) rfl faulted⟩⟩)
    fun reply _ _ vouched => vouched.quiet (Moment.quiet_returned reply)

theorem Call.assured_vouching (call : Call) : call.Assured vouching := by
  have quiet : (Moment.called call).Quiet → call.action.Does vouching Vouched →
      call.Assured vouching := fun quiet does =>
    Call.assured_of_vouches does (fun _ _ vouched => (vouched.quiet quiet).1) quiet.told
  have still : (Moment.called call).Still → (∀ h, telling (.called call :: h) = telling h) →
      call.action.Does vouching Recorded → call.Assured vouching := fun still told does =>
    Call.assured_of_vouches does (fun _ _ vouched => vouched.toRecorded.still still) told
  cases call with
  | disconnect =>
    refine still ⟨rfl, rfl, nofun⟩ (fun _ => rfl) ?_
    have begins : Client.disconnect.Begins Client.beginDisconnect fun _ => True :=
      Client.begins_disconnect trivial
    exact (begins.map Reply.flag).vouches (fun _ => .of .beginDisconnect rfl)
      Client.phase_beginDisconnect
  | disconnectAsync =>
    exact still ⟨rfl, rfl, nofun⟩ (fun _ => rfl) (does_map vouches_disconnectAsync)
  | transportDown =>
    refine still ⟨rfl, rfl, nofun⟩ (fun _ => rfl) ?_
    have begins : Client.transportDown.Begins Client.disconnected fun _ => True :=
      Client.begins_transportDown
    exact (begins.map fun _ => Reply.none).vouches (fun _ => .of .disconnected rfl)
      Client.phase_disconnected
  | connect key =>
    exact quiet ⟨⟨rfl, rfl, nofun⟩, rfl, rfl, fun _ => rfl⟩ (does_map (vouches_connect key))
  | bytesArrived data =>
    exact quiet ⟨⟨rfl, rfl, nofun⟩, rfl, rfl, fun _ => rfl⟩ (does_map (vouches_bytesArrived data))
  | responseArrived response =>
    exact Call.assured_of_vouches (does_map (vouches_responseArrived response))
      (fun _ h vouched => ⟨h, rfl, vouched⟩) fun _ => rfl
  | handshakeCompleted =>
    exact Call.assured_of_vouches (does_map vouches_handshakeCompleted)
      (fun _ h vouched => ⟨h, rfl, vouched⟩) fun _ => rfl
  | _ =>
    exact quiet ⟨⟨rfl, rfl, nofun⟩, rfl, rfl, fun _ => rfl⟩ (Call.routinely rfl).vouches

theorem vouched_of_reachable {allowed : Session → Turn → Prop} {config : Config} {seed : UInt32}
    {s : Session} (reachable : Session.ReachableBy allowed config seed s) :
    Vouched s.client s.history := by
  have start : Vouched (.ofConfig config seed) [] :=
    ⟨⟨.nil, rfl, fun _ _ isIn => (List.not_mem_nil isIn).elim, nofun⟩, nofun⟩
  exact (Session.sound_of_assured Call.assured_vouching start reachable).holds

/-- In every session connections open only through verified handshakes. -/
theorem verified_of_reachable {config : Config} {seed : UInt32} {s : Session}
    (reachable : Session.Reachable config seed s) : Verified s.history :=
  (vouched_of_reachable reachable).verified

def Moment.notice? : Moment → Option Notice
  | asked (.notify _ notice) => some notice
  | _ => none

/-- What the listener was told, latest first. -/
def notices (h : List Moment) : List Notice := h.filterMap Moment.notice?

/-- The response that answers the empty key. -/
def goodResponse : UpgradeResponse :=
  { status := 101
    headers := [("Upgrade", "websocket"), ("Connection", "Upgrade"),
      ("Sec-WebSocket-Accept", acceptFor "")] }

/-- An attempt that is rejected, and another that is not. -/
def rejectedThenOpened : List Choice :=
  [.call (.listen (.named "main")), .call (.connectAsync (.ofNonce [])), .answer Request.takenUp,
    .call (.responseArrived ⟨403, []⟩), .answer Request.takenUp, .answer Request.takenUp,
    .call .transportDown, .answer Request.takenUp, .call (.connectAsync (.ofNonce [])),
    .answer Request.takenUp, .call (.responseArrived goodResponse), .call .handshakeCompleted]

theorem verified_of_reachable_rejectedThenOpened :
    ∃ s message, Session.after rejectedThenOpened (.ofConfig {} 0) = some s ∧
      s.client.phase = .opened ∧
      notices s.history = [.connected (some goodResponse), .disconnected,
        .error (.fault .webSocket message)] ∧
      Verified s.history := by
  have played : (Session.after rejectedThenOpened (.ofConfig {} 0)).map
      (fun s => (s.client.phase, notices s.history)) =
      some (.opened, [.connected (some goodResponse), .disconnected, .error (.fault .webSocket
        "Invalid handshake: Expected 101 status, got: 403")]) := by
    decide +kernel
  obtain ⟨s, made, told⟩ := Option.map_eq_some_iff.mp played
  simp only [Prod.mk.injEq] at told
  obtain ⟨opened, told⟩ := told
  exact ⟨s, _, made, opened, told, verified_of_reachable (.after .start made)⟩

/-- The server breaks the rules before the handshake is complete, and the listener is told. -/
def faultThenOpened : List Choice :=
  [.call (.listen (.named "main")), .call (.connectAsync (.ofNonce [])), .answer Request.takenUp,
    .call (.bytesArrived [0x83, 0x00]), .call .handshakeCompleted]

/-- While the listener is being told of a fault the faulted attempt can open. -/
theorem faulted_attempt_opens :
    ∃ s, Session.after faultThenOpened (.ofConfig {} 0) = some s ∧ attempts s.history = 1 ∧
      s.client.phase = .opened ∧ (∃ moment ∈ handshake s.history, moment.reportsFault) ∧
      .connected none ∈ notices s.history := by
  have played : (Session.after faultThenOpened (.ofConfig {} 0)).map
      (fun s => (attempts s.history, s.client.phase,
        (handshake s.history).any Moment.reportsFault,
        decide (.connected none ∈ notices s.history))) = some (1, .opened, true, true) := by
    decide +kernel
  obtain ⟨s, made, told⟩ := Option.map_eq_some_iff.mp played
  simp only [Prod.mk.injEq, List.any_eq_true, decide_eq_true_eq] at told
  obtain ⟨one, opened, faulted, connected⟩ := told
  exact ⟨s, made, one, opened, faulted, connected⟩

end WebSocket
