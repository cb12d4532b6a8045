import Mathlib.Data.List.Forall2
import WebSocket.Client.Call
import WebSocket.Client.Session

/-!
# Clients that are alike

Two clients are alike if they differ in the key they connect with, in the response to it, in the
masking keys still to come and in messages that wait before all others (`Client.Alike`). None of
this shows in what a client does, apart from where it is handed out: whatever is asked of both, they
go through the same steps, make the same requests of the transport and the listener, up to masks and
responses, and are alike again afterwards (`Call.alike`). Only a reader sees the messages that wait
before the others; `old` are those that may be left of them.
-/

namespace WebSocket

open WebSocket.Action

variable {α β γ δ : Type}

/-! ### What may differ -/

/-- Keys and responses of two connections that belong together: to the keys the responses are
equally good answers. -/
structure Correspondence where
  keys : HandshakeKey → HandshakeKey → Prop
  responses : UpgradeResponse → UpgradeResponse → Prop
  judged : ∀ {key key' response response'}, keys key key' → responses response response' →
    response.flaw? key = response'.flaw? key'

theorem Correspondence.validate (corr : Correspondence) {key key' : HandshakeKey}
    {response response' : UpgradeResponse} (keys : corr.keys key key')
    (responses : corr.responses response response') :
    response.validate key = response'.validate key' := by
  simp only [UpgradeResponse.validate, corr.judged keys responses]

/-- Responses that are equally good answers to all keys that belong together. -/
def Correspondence.ofKeys (keys : HandshakeKey → HandshakeKey → Prop) : Correspondence where
  keys
  responses response response' :=
    ∀ key key', keys key key' → response.flaw? key = response'.flaw? key'
  judged same responses := responses _ _ same

variable (corr : Correspondence) (old : List Message)

/-- The first client has another key, response and masking keys, and messages that wait before
all others. -/
inductive Client.Alike (rest : List Message) : Client → Client → Prop
  | intro (c : Client) (masks : MaskSource) {key : Option HandshakeKey}
    {response : Option UpgradeResponse} (keys : Option.Rel corr.keys key c.key)
    (responses : Option.Rel corr.responses response c.response) :
    Client.Alike rest
      { c with
        key, response
        gate := { c.gate with masks }
        mailbox := { c.mailbox with messages := rest ++ c.mailbox.messages } } c

/-- Frames of the same parcel. -/
def SameParcel (bytes bytes' : Bytes) : Prop :=
  ∃ (parcel : Parcel) (key key' : MaskKey), bytes = parcel.encode key ∧ bytes' = parcel.encode key'

inductive Request.Alike : Request → Request → Prop
  | same (r : Request) : Request.Alike r r
  | connected (listener : Listener) {response response' : Option UpgradeResponse}
    (responses : Option.Rel corr.responses response response') :
    Request.Alike (.notify listener (.connected response))
      (.notify listener (.connected response'))
  | send {bytes bytes' : Bytes} (parcel : SameParcel bytes bytes') :
    Request.Alike (.send bytes) (.send bytes')
  | sendWithin (limit : Duration) {bytes bytes' : Bytes} (parcel : SameParcel bytes bytes') :
    Request.Alike (.sendWithin limit bytes) (.sendWithin limit bytes')
  | sendAsync {bytes bytes' : Bytes} (parcel : SameParcel bytes bytes') :
    Request.Alike (.sendAsync bytes) (.sendAsync bytes')

/-- A call that comes with a key or with the response to one. -/
def Call.isKeyed : Call → Bool
  | connect _ | connectAsync _ | responseArrived _ => true
  | _ => false

inductive Call.Alike : Call → Call → Prop
  | connect {key key' : HandshakeKey} (keys : corr.keys key key') :
    Call.Alike (.connect key) (.connect key')
  | connectAsync {key key' : HandshakeKey} (keys : corr.keys key key') :
    Call.Alike (.connectAsync key) (.connectAsync key')
  | responseArrived {response response' : UpgradeResponse}
    (responses : corr.responses response response') :
    Call.Alike (.responseArrived response) (.responseArrived response')
  | same {call : Call} (keyless : call.isKeyed = false) : Call.Alike call call

/-- Two actions that go the same way in clients that are alike, and end in values of some sort. -/
inductive Action.Alike (sort : α → β → Prop) : Action α → Action β → Prop
  | done {value : α} {value' : β} (same : sort value value') :
    Action.Alike sort (.done value) (.done value')
  | access {change change' : Client → Client} {next : Client → Action α} {next' : Client → Action β}
    (changes : ∀ rest c d, rest <:+ old → c.Alike corr rest d →
      (change c).Alike corr rest (change' d))
    (later : ∀ rest c d, rest <:+ old → c.Alike corr rest d →
      Action.Alike sort (next c) (next' d)) :
    Action.Alike sort (.access change next) (.access change' next')
  | ask {r r' : Request} {next : r.Answer → Action α} {next' : r'.Answer → Action β}
    (asked : r.Alike corr r')
    (later : ∀ answer answer', HEq answer answer' →
      Action.Alike sort (next answer) (next' answer')) :
    Action.Alike sort (.ask r next) (.ask r' next')
  | wait {limit : Option Duration} {ready ready' : Client → Bool} {next : Action α}
    {next' : Action β}
    (readies : ∀ rest c d, rest <:+ old → c.Alike corr rest d → ready c = ready' d)
    (later : Action.Alike sort next next') :
    Action.Alike sort (.wait limit ready next) (.wait limit ready' next')

/-- An action that goes the same way in clients that are alike, and ends in the same value. -/
abbrev Action.Agrees (x : Action α) : Prop := x.Alike corr old Eq x

variable {corr old}

/-! ### The parts of an action -/

namespace Action

section Parts

variable {sort : α → β → Prop}

theorem alike_pure {value : α} {value' : β} (same : sort value value') :
    (pure value : Action α).Alike corr old sort (pure value') := .done same

theorem alike_bind {sort' : γ → δ → Prop} {x : Action α} {y : Action β} {k : α → Action γ}
    {k' : β → Action δ} (first : x.Alike corr old sort y)
    (later : ∀ value value', sort value value' → (k value).Alike corr old sort' (k' value')) :
    (x >>= k).Alike corr old sort' (y >>= k') := by
  induction first with
  | done same => exact later _ _ same
  | access changes _ ih => exact .access changes ih
  | ask asked _ ih => exact .ask asked ih
  | wait readies _ ih => exact .wait readies ih

theorem alike_step {f : Client → α × Client} {f' : Client → β × Client}
    (steps : ∀ rest c d, rest <:+ old → c.Alike corr rest d →
      sort (f c).1 (f' d).1 ∧ (f c).2.Alike corr rest (f' d).2) :
    (step f).Alike corr old sort (step f') :=
  .access (fun rest c d short alike => (steps rest c d short alike).2)
    fun rest c d short alike => .done (steps rest c d short alike).1

theorem alike_get :
    get.Alike corr old (fun c d => ∃ rest, rest <:+ old ∧ c.Alike corr rest d) get :=
  .access (fun _ _ _ _ => id) fun rest _ _ short alike => .done ⟨rest, short, alike⟩

theorem Alike.mono {fewer : List Message} {x : Action α} {y : Action β}
    (alike : x.Alike corr old sort y) (shorter : fewer <:+ old) : x.Alike corr fewer sort y := by
  induction alike with
  | done same => exact .done same
  | access changes _ ih =>
    exact .access (fun rest c d short => changes rest c d (short.trans shorter))
      fun rest c d short alike => ih rest c d (short.trans shorter) alike
  | ask asked _ ih => exact .ask asked ih
  | wait readies _ ih =>
    exact .wait (fun rest c d short => readies rest c d (short.trans shorter)) ih

/-- What follows a step of two actions that are alike. -/
theorem Alike.later {x : Action α} {y : Action β} (alike : x.Alike corr old sort y)
    {f : Client → γ × Client} {f' : Client → δ × Client} {k : γ → Action α} {k' : δ → Action β}
    (first : x = step f >>= k) (first' : y = step f' >>= k') {rest : List Message} {c d : Client}
    (short : rest <:+ old) (clients : c.Alike corr rest d) :
    (k (f c).1).Alike corr old sort (k' (f' d).1) := by
  subst first first'
  change Action.Alike corr old sort (.access _ _) (.access _ _) at alike
  cases alike with
  | access _ later => exact later rest c d short clients

end Parts

theorem agrees_bind {x : Action α} {k : α → Action β} (first : x.Agrees corr old)
    (later : ∀ value, (k value).Agrees corr old) : (x >>= k).Agrees corr old :=
  alike_bind first fun value _ same => same ▸ later value

theorem agrees_pure (value : α) : (pure value : Action α).Agrees corr old := .done rfl

theorem agrees_map {f : α → β} {x : Action α} (agrees : x.Agrees corr old) :
    (f <$> x).Agrees corr old := agrees_bind agrees fun value => agrees_pure (f value)

theorem agrees_discard {x : Action α} (agrees : x.Agrees corr old) :
    (discard x).Agrees corr old := agrees_map agrees

theorem agrees_step {f : Client → α × Client}
    (steps : ∀ rest c d, rest <:+ old → c.Alike corr rest d →
      (f c).1 = (f d).1 ∧ (f c).2.Alike corr rest (f d).2) :
    (step f).Agrees corr old := alike_step steps

theorem agrees_modify {f : Client → Client}
    (steps : ∀ rest c d, rest <:+ old → c.Alike corr rest d → (f c).Alike corr rest (f d)) :
    (modify f).Agrees corr old :=
  .access steps fun _ _ _ _ _ => .done rfl

/-- An action that looks at the client goes on alike if it looks only at what is the same. -/
theorem agrees_get_bind {k : Client → Action α}
    (later : ∀ rest c d, rest <:+ old → c.Alike corr rest d → (k c).Alike corr old Eq (k d)) :
    (get >>= k).Agrees corr old :=
  alike_bind alike_get fun _ _ ⟨rest, short, alike⟩ => later rest _ _ short alike

theorem agrees_request (r : Request) : (request r).Agrees corr old :=
  .ask (.same r) fun _ _ same => .done (eq_of_heq same)

theorem agrees_waitFor (limit : Option Duration) {ready : Client → Bool}
    (readies : ∀ rest c d, rest <:+ old → c.Alike corr rest d → ready c = ready d) :
    (waitFor limit ready).Agrees corr old := .wait readies (.done rfl)

end Action

/-! ### Strokes -/

namespace Client

variable {rest : List Message} {c d : Client}

theorem Alike.of_eq (keys : Option.Rel corr.keys c.key d.key)
    (responses : Option.Rel corr.responses c.response d.response)
    (same : c =
      { d with
        key := c.key
        response := c.response
        gate := { d.gate with masks := c.gate.masks }
        mailbox := { d.mailbox with messages := rest ++ d.mailbox.messages } }) :
    c.Alike corr rest d := by
  rw [same]
  exact .intro d _ keys responses

theorem Alike.phase (alike : c.Alike corr rest d) : c.phase = d.phase := by
  cases alike
  rfl

theorem Alike.config (alike : c.Alike corr rest d) : c.config = d.config := by
  cases alike
  rfl

theorem Alike.listener (alike : c.Alike corr rest d) : c.listener = d.listener := by
  cases alike
  rfl

theorem Alike.receiver (alike : c.Alike corr rest d) : c.receiver = d.receiver := by
  cases alike
  rfl

theorem Alike.isHeld (alike : c.Alike corr rest d) : c.gate.isHeld = d.gate.isHeld := by
  cases alike
  rfl

theorem Alike.announced (alike : c.Alike corr rest d) : c.announced = d.announced := by
  cases alike
  rfl

theorem Alike.checkOpen (alike : c.Alike corr rest d) : c.checkOpen = d.checkOpen := by
  cases alike
  rfl

theorem Alike.isReady (alike : c.Alike corr [] d) : c.mailbox.isReady = d.mailbox.isReady := by
  cases alike
  rfl

theorem alike_beginConnect {key key' : HandshakeKey} (keys : corr.keys key key') (awaited : Bool)
    (alike : c.Alike corr rest d) :
    (c.beginConnect key awaited).1 = (d.beginConnect key' awaited).1 ∧
      (c.beginConnect key awaited).2.Alike corr rest (d.beginConnect key' awaited).2 := by
  cases alike with
  | intro d masks keysBefore responses =>
    obtain ⟨config, ⟨phase, sent, received⟩, others⟩ := d
    cases phase with
    | closed => exact ⟨rfl, .of_eq (.some keys) .none rfl⟩
    | _ => exact ⟨rfl, .of_eq keysBefore responses rfl⟩

theorem alike_abortConnect (alike : c.Alike corr rest d) :
    c.abortConnect.Alike corr rest d.abortConnect := by
  cases alike with
  | intro d masks keys responses => exact .of_eq keys responses rfl

theorem alike_stopAwaiting (alike : c.Alike corr rest d) :
    c.stopAwaiting.1 = d.stopAwaiting.1 ∧ c.stopAwaiting.2.Alike corr rest d.stopAwaiting.2 := by
  cases alike with
  | intro d masks keys responses => exact ⟨rfl, .of_eq keys responses rfl⟩

theorem alike_judgeResponse {response response' : UpgradeResponse}
    (judged : corr.responses response response') (alike : c.Alike corr rest d) :
    (c.judgeResponse response).1 = (d.judgeResponse response').1 ∧
      (c.judgeResponse response).2.Alike corr rest (d.judgeResponse response').2 := by
  unfold judgeResponse
  rw [alike.phase]
  split
  · exact ⟨rfl, alike⟩
  cases alike with
  | @intro d masks key kept keys responses =>
    obtain ⟨config, negotiation, key', others⟩ := d
    cases keys with
    | none => exact ⟨rfl, .of_eq .none responses rfl⟩
    | some same =>
      simp only [corr.validate same judged]
      split
      · exact ⟨rfl, .of_eq (.some same) (.some judged) rfl⟩
      · exact ⟨rfl, .of_eq (.some same) responses rfl⟩

theorem alike_completeHandshake (alike : c.Alike corr rest d) :
    Option.Rel (Option.Rel corr.responses) c.completeHandshake.1 d.completeHandshake.1 ∧
      c.completeHandshake.2.Alike corr rest d.completeHandshake.2 := by
  cases alike with
  | intro d masks keys responses =>
    obtain ⟨config, ⟨phase, sent, received⟩, key, awaited, announced, rejected, others⟩ := d
    cases rejected with
    | true => exact ⟨.none, .of_eq keys responses rfl⟩
    | false =>
      cases phase with
      | connecting => exact ⟨.some responses, .of_eq keys .none rfl⟩
      | _ => exact ⟨.none, .of_eq keys responses rfl⟩

theorem alike_closeLocally (status : UInt16) (alike : c.Alike corr rest d) :
    (c.closeLocally status).1 = (d.closeLocally status).1 ∧
      (c.closeLocally status).2.Alike corr rest (d.closeLocally status).2 := by
  cases alike with
  | intro d masks keys responses => exact ⟨rfl, .of_eq keys responses rfl⟩

theorem alike_beginDisconnect (alike : c.Alike corr rest d) :
    c.beginDisconnect.1 = d.beginDisconnect.1 ∧
      c.beginDisconnect.2.Alike corr rest d.beginDisconnect.2 := by
  cases alike with
  | intro d masks keys responses =>
    obtain ⟨config, ⟨phase, sent, received⟩, others⟩ := d
    cases phase <;> exact ⟨rfl, .of_eq keys responses rfl⟩

theorem alike_beginClose (code : CloseCode) (alike : c.Alike corr rest d) :
    (c.beginClose code).1 = (d.beginClose code).1 ∧
      (c.beginClose code).2.Alike corr rest (d.beginClose code).2 := by
  cases alike with
  | intro d masks keys responses =>
    obtain ⟨config, ⟨phase, sent, received⟩, others⟩ := d
    unfold beginClose
    split
    · exact ⟨rfl, .of_eq keys responses rfl⟩
    · cases phase <;> exact ⟨rfl, .of_eq keys responses rfl⟩

theorem alike_closeRemotely (body : Option CloseBody) (alike : c.Alike corr rest d) :
    (c.closeRemotely body).1 = (d.closeRemotely body).1 ∧
      (c.closeRemotely body).2.Alike corr rest (d.closeRemotely body).2 := by
  cases alike with
  | intro d masks keys responses => exact ⟨rfl, .of_eq keys responses rfl⟩

theorem alike_disconnected (alike : c.Alike corr rest d) :
    c.disconnected.1 = d.disconnected.1 ∧ c.disconnected.2.Alike corr rest d.disconnected.2 := by
  cases alike with
  | intro d masks keys responses => exact ⟨rfl, .of_eq keys responses rfl⟩

theorem alike_absorb (data : Bytes) (alike : c.Alike corr rest d) :
    (c.absorb data).1 = (d.absorb data).1 ∧
      (c.absorb data).2.Alike corr rest (d.absorb data).2 := by
  have halted : c.halted = d.halted := by
    cases alike
    rfl
  by_cases idle : d.phase = .closed ∨ d.halted = true
  · rw [absorb_idle idle, absorb_idle (alike.phase ▸ halted ▸ idle)]
    exact ⟨rfl, alike⟩
  · obtain ⟨active, listening⟩ := not_or.mp idle
    rw [Bool.not_eq_true] at listening
    rw [absorb_active active listening,
      absorb_active (alike.phase ▸ active) (halted.trans listening)]
    cases alike with
    | intro d masks keys responses => exact ⟨rfl, .of_eq keys responses rfl⟩

theorem alike_enqueue (message : Message) (alike : c.Alike corr rest d) :
    (c.enqueue message).Alike corr rest (d.enqueue message) := by
  cases alike with
  | intro d masks keys responses =>
    have same : rest ++ d.mailbox.messages ++ [message] =
      rest ++ (d.mailbox.messages ++ [message]) := List.append_assoc _ _ _
    simp only [enqueue, Mailbox.push, same]
    exact .of_eq keys responses rfl

/-- Once nothing waits before the others, the oldest message is the same. -/
theorem alike_dequeue (alike : c.Alike corr [] d) :
    c.dequeue.1 = d.dequeue.1 ∧ c.dequeue.2.Alike corr [] d.dequeue.2 := by
  cases alike with
  | intro d masks keys responses => exact ⟨rfl, .of_eq keys responses rfl⟩

theorem alike_leaveGate (alike : c.Alike corr rest d) :
    c.leaveGate.Alike corr rest d.leaveGate := by
  cases alike with
  | intro d masks keys responses => exact .of_eq keys responses rfl

/-- A parcel is refused for the same reason, or gets a frame in both. -/
inductive Entered : Except Error Bytes → Except Error Bytes → Prop
  | refused (e : Error) : Entered (.error e) (.error e)
  | granted {bytes bytes' : Bytes} (same : SameParcel bytes bytes') :
    Entered (.ok bytes) (.ok bytes')

theorem alike_enterGate {consent : Client → Except Error Unit} (parcel : Parcel)
    (consents : consent c = consent d) (alike : c.Alike corr rest d) :
    Entered (c.enterGate consent parcel).1 (d.enterGate consent parcel).1 ∧
      (c.enterGate consent parcel).2.Alike corr rest (d.enterGate consent parcel).2 := by
  cases granted : consent d with
  | error e =>
    rw [enterGate_refused granted, enterGate_refused (consents.trans granted)]
    exact ⟨.refused e, alike⟩
  | ok _ =>
    obtain ⟨key', masks', entered'⟩ := enterGate_granted granted parcel
    obtain ⟨key, masks, entered⟩ := enterGate_granted (consents.trans granted) parcel
    rw [entered, entered']
    cases alike with
    | intro d _ keys responses =>
      exact ⟨.granted ⟨parcel, key, key', rfl, rfl⟩, .of_eq keys responses rfl⟩

/-! ### Telling the listener, and the end of a connection -/

theorem alike_notify {notice notice' : Notice}
    (told : ∀ listener, (Request.notify listener notice).Alike corr (.notify listener notice')) :
    (notify notice).Alike corr old Eq (notify notice') := by
  apply alike_bind alike_get
  rintro c d ⟨rest, short, alike⟩
  rw [alike.listener]
  split
  · exact .ask (told _) fun _ _ _ => .done rfl
  · exact .done rfl

theorem agrees_notify (notice : Notice) : (notify notice).Agrees corr old :=
  alike_notify fun _ => .same _

theorem agrees_transportDown : transportDown.Agrees corr old := by
  apply agrees_bind (agrees_step fun _ _ _ _ => alike_disconnected)
  intro changed
  split
  · exact agrees_notify _
  · exact agrees_pure ()

theorem agrees_transportFailed (reason : String) : (transportFailed reason).Agrees corr old :=
  agrees_bind (agrees_notify _) fun _ => agrees_transportDown

/-! ### Sending -/

theorem agrees_throughGate {consent : Client → Except Error Unit} (parcel : Parcel)
    {transmit : Bytes → Action α}
    (consents : ∀ {rest c d}, Client.Alike corr rest c d → consent c = consent d)
    (handsOver : ∀ {bytes bytes'}, SameParcel bytes bytes' →
      (transmit bytes).Alike corr old Eq (transmit bytes')) :
    (throughGate consent parcel transmit).Agrees corr old := by
  apply agrees_bind (agrees_waitFor _ fun _ _ _ _ alike => congrArg (!·) alike.isHeld)
  intro _
  apply alike_bind (alike_step fun _ _ _ _ alike => alike_enterGate parcel (consents alike) alike)
  intro entered entered' same
  cases same with
  | refused e => exact agrees_pure _
  | granted same =>
    apply alike_bind (handsOver same)
    rintro answer _ rfl
    exact agrees_bind (agrees_modify fun _ _ _ _ => alike_leaveGate) fun _ => agrees_pure _

theorem agrees_always {rest : List Message} {c d : Client} (_ : c.Alike corr rest d) :
    always c = always d := rfl

theorem alike_sendAsync {bytes bytes' : Bytes} (same : SameParcel bytes bytes') :
    (request (.sendAsync bytes)).Alike corr old Eq (request (.sendAsync bytes')) :=
  .ask (.sendAsync same) fun _ _ same => .done (eq_of_heq same)

theorem alike_send {bytes bytes' : Bytes} (same : SameParcel bytes bytes') :
    (request (.send bytes)).Alike corr old Eq (request (.send bytes')) :=
  .ask (.send same) fun _ _ same => .done (eq_of_heq same)

theorem alike_transmitWithin (limit : Option Duration) {bytes bytes' : Bytes}
    (same : SameParcel bytes bytes') :
    (transmitWithin limit bytes).Alike corr old Eq (transmitWithin limit bytes') := by
  cases limit with
  | none => exact alike_send same
  | some limit => exact .ask (.sendWithin limit same) fun _ _ same => .done (eq_of_heq same)

theorem agrees_transmit {consent : Client → Except Error Unit} (parcel : Parcel)
    (limit : Option Duration)
    (consents : ∀ {rest c d}, Client.Alike corr rest c d → consent c = consent d) :
    (transmit consent parcel limit).Agrees corr old := by
  apply agrees_get_bind
  intro rest c d short alike
  simp only [sendTimeout, alike.config]
  apply agrees_bind (agrees_throughGate parcel consents (alike_transmitWithin _))
  intro answer
  split
  · exact agrees_pure _
  · exact agrees_pure _
  · exact agrees_bind (agrees_transportFailed _) fun _ => agrees_pure _

theorem agrees_transmitAsync {consent : Client → Except Error Unit} (parcel : Parcel)
    (consents : ∀ {rest c d}, Client.Alike corr rest c d → consent c = consent d) :
    (transmitAsync consent parcel).Agrees corr old :=
  agrees_throughGate parcel consents alike_sendAsync

theorem agrees_announceClose (status : UInt16) : (announceClose status).Agrees corr old :=
  agrees_discard (agrees_transmitAsync _ agrees_always)

theorem agrees_sendClose (code : CloseCode) (reason : String) (limit : Option Duration) :
    (sendClose code reason limit).Agrees corr old := by
  apply agrees_bind (agrees_step fun _ _ _ _ => alike_beginClose code)
  intro begun
  split
  · exact agrees_pure _
  · exact agrees_pure _
  · exact agrees_transmit _ _ agrees_always

theorem agrees_sendCloseAsync (code : CloseCode) (reason : String) :
    (sendCloseAsync code reason).Agrees corr old := by
  apply agrees_bind (agrees_step fun _ _ _ _ => alike_beginClose code)
  intro begun
  split
  · exact agrees_pure _
  · exact agrees_pure _
  · exact agrees_transmitAsync _ agrees_always

theorem agrees_disconnect : disconnect.Agrees corr old := by
  apply agrees_bind (agrees_step fun _ _ _ _ => alike_beginDisconnect)
  intro begun
  split
  · exact agrees_pure _
  · have down : (request .disconnect).Agrees corr old := agrees_request _
    split
    · exact agrees_bind (agrees_discard (agrees_throughGate _ agrees_always alike_send))
        fun _ => down
    · exact down

theorem agrees_disconnectAsync : disconnectAsync.Agrees corr old := by
  apply agrees_bind (agrees_step fun _ _ _ _ => alike_beginDisconnect)
  intro begun
  split
  · exact agrees_pure _
  · have down : (request .disconnectAsync).Agrees corr old := agrees_request _
    split
    · exact agrees_bind (agrees_announceClose _) fun _ => down
    · exact down

/-! ### Connecting -/

theorem agrees_awaitHandshake : awaitHandshake.Agrees corr old := by
  apply agrees_get_bind
  intro rest c d short alike
  rw [alike.phase]
  split
  · apply agrees_get_bind
    intro rest c d short alike
    simp only [handshakeTimeout, alike.config]
    exact agrees_waitFor _ fun _ _ _ _ alike => by rw [alike.announced]
  · exact agrees_pure ()

theorem alike_connect {key key' : HandshakeKey} (keys : corr.keys key key') :
    (Client.connect key).Alike corr old Eq (Client.connect key') := by
  apply alike_bind (alike_step fun _ _ _ _ => alike_beginConnect keys true)
  rintro begun _ rfl
  split
  · apply agrees_bind (agrees_request _)
    intro taken
    split
    · exact agrees_bind (agrees_modify fun _ _ _ _ => alike_abortConnect) fun _ => agrees_pure _
    · apply agrees_bind agrees_awaitHandshake
      intro _
      apply agrees_bind (agrees_step fun _ _ _ _ => alike_stopAwaiting)
      intro phase
      split
      · exact agrees_bind (agrees_discard agrees_disconnectAsync) fun _ => agrees_pure _
      · exact agrees_pure _
  · exact agrees_pure _

theorem alike_connectAsync {key key' : HandshakeKey} (keys : corr.keys key key') :
    (Client.connectAsync key).Alike corr old Eq (Client.connectAsync key') := by
  apply alike_bind (alike_step fun _ _ _ _ => alike_beginConnect keys false)
  rintro begun _ rfl
  split
  · apply agrees_bind (agrees_request _)
    intro taken
    split
    · exact agrees_pure _
    · exact agrees_bind (agrees_modify fun _ _ _ _ => alike_abortConnect) fun _ => agrees_pure _
  · exact agrees_pure _

theorem alike_responseArrived {response response' : UpgradeResponse}
    (responses : corr.responses response response') :
    (Client.responseArrived response).Alike corr old Eq (Client.responseArrived response') := by
  apply alike_bind (alike_step fun _ _ _ _ => alike_judgeResponse responses)
  rintro judged _ rfl
  split
  · exact agrees_pure _
  · exact agrees_bind (agrees_notify _) fun _ => agrees_discard (agrees_request _)

theorem agrees_handshakeCompleted : handshakeCompleted.Agrees corr old := by
  apply alike_bind (alike_step fun _ _ _ _ => alike_completeHandshake)
  intro completed completed' same
  cases same with
  | none => exact agrees_pure _
  | some responses => exact alike_notify fun listener => .connected listener responses

/-! ### Receiving -/

theorem agrees_handOver (message : Message) : (handOver message).Agrees corr old := by
  apply agrees_get_bind
  intro rest c d short alike
  rw [alike.receiver]
  split
  · exact .ask (.same _) fun _ _ _ => .done rfl
  · exact agrees_modify fun _ _ _ _ => alike_enqueue message

theorem agrees_remoteClose (body : Option CloseBody) : (remoteClose body).Agrees corr old := by
  apply agrees_bind (agrees_notify _)
  intro _
  apply agrees_bind (agrees_step fun _ _ _ _ => alike_closeRemotely body)
  intro reaction
  have down : (discard (request .disconnectAsync)).Agrees corr old :=
    agrees_discard (agrees_request _)
  split
  · exact agrees_bind (agrees_announceClose _) fun _ => down
  · exact down
  · exact agrees_pure _

theorem agrees_dispatch (event : Event) : (dispatch event).Agrees corr old := by
  cases event with
  | message message => exact agrees_handOver message
  | ping payload =>
    apply agrees_get_bind
    intro rest c d short alike
    rw [alike.config]
    have pongs : (sendAsync (.pong payload)).Agrees corr old :=
      agrees_transmitAsync _ Alike.checkOpen
    split
    · exact agrees_bind (agrees_discard pongs) fun _ => agrees_notify _
    · exact agrees_notify _
  | pong payload => exact agrees_notify _
  | close body => exact agrees_remoteClose body

theorem agrees_dispatchAll (events : List Event) : (dispatchAll events).Agrees corr old := by
  induction events with
  | nil => exact agrees_pure _
  | cons event later ih => exact agrees_bind (agrees_dispatch event) fun _ => ih

theorem agrees_protocolFault (e : Error) : (protocolFault e).Agrees corr old := by
  apply agrees_bind (agrees_notify _)
  intro _
  apply agrees_bind (agrees_step fun _ _ _ _ => alike_closeLocally e.closeStatus)
  intro mustSend
  have down : (discard (request .disconnectAsync)).Agrees corr old :=
    agrees_discard (agrees_request _)
  split
  · exact agrees_bind (agrees_announceClose _) fun _ => down
  · exact down

theorem agrees_bytesArrived (data : Bytes) : (bytesArrived data).Agrees corr old := by
  apply agrees_bind (agrees_step fun _ _ _ _ => alike_absorb data)
  intro read
  apply agrees_bind (agrees_dispatchAll _)
  intro _
  split
  · exact agrees_protocolFault _
  · exact agrees_pure _

/-- Readers do the same once nothing waits before the others. -/
theorem agrees_receive (limit : Option Duration) : (receive limit).Agrees corr [] := by
  apply agrees_get_bind
  intro rest c d short alike
  simp only [receiveTimeout, alike.config]
  have ready : ∀ rest c d, rest <:+ [] → Client.Alike corr rest c d →
      c.mailbox.isReady = d.mailbox.isReady := by
    intro rest c d short alike
    rw [List.suffix_nil.mp short] at alike
    exact alike.isReady
  apply agrees_bind (agrees_waitFor _ ready)
  intro _
  refine agrees_step fun rest c d short alike => ?_
  rw [List.suffix_nil.mp short] at alike ⊢
  exact alike_dequeue alike

end Client

/-! ### Calls -/

def Call.isReceive : Call → Bool
  | receive _ => true
  | _ => false

theorem Call.alike {call call' : Call} (alike : call.Alike corr call')
    (unread : call.isReceive = true → old = []) :
    call.action.Alike corr old Eq call'.action := by
  cases alike with
  | connect keys =>
    exact alike_bind (Client.alike_connect keys) fun _ _ same => alike_pure (congrArg _ same)
  | connectAsync keys =>
    exact alike_bind (Client.alike_connectAsync keys) fun _ _ same => alike_pure (congrArg _ same)
  | responseArrived responses =>
    exact alike_bind (Client.alike_responseArrived responses) fun _ _ _ => alike_pure rfl
  | same keyless =>
    cases call with
    | connect | connectAsync | responseArrived => cases keyless
    | disconnect => exact agrees_map Client.agrees_disconnect
    | disconnectAsync => exact agrees_map Client.agrees_disconnectAsync
    | send what limit => exact agrees_map (Client.agrees_transmit _ _ Client.Alike.checkOpen)
    | sendAsync what => exact agrees_map (Client.agrees_transmitAsync _ Client.Alike.checkOpen)
    | sendClose code reason limit => exact agrees_map (Client.agrees_sendClose code reason limit)
    | sendCloseAsync code reason => exact agrees_map (Client.agrees_sendCloseAsync code reason)
    | receive limit =>
      cases unread rfl
      exact agrees_map (Client.agrees_receive limit)
    | listen listener =>
      refine agrees_bind (agrees_modify fun rest c d _ alike => ?_) fun _ => agrees_pure _
      cases alike with
      | intro d masks keys responses => exact .of_eq keys responses rfl
    | deliverTo receiver =>
      refine agrees_bind (agrees_modify fun rest c d _ alike => ?_) fun _ => agrees_pure _
      cases alike with
      | intro d masks keys responses => exact .of_eq keys responses rfl
    | handshakeCompleted =>
      exact agrees_bind Client.agrees_handshakeCompleted fun _ => agrees_pure _
    | bytesArrived data =>
      exact agrees_bind (Client.agrees_bytesArrived data) fun _ => agrees_pure _
    | transportDown => exact agrees_bind Client.agrees_transportDown fun _ => agrees_pure _
    | transportFailed reason =>
      exact agrees_bind (Client.agrees_transportFailed reason) fun _ => agrees_pure _

end WebSocket
