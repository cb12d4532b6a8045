import WebSocket.Proofs.Session.Parting
import WebSocket.Proofs.Session.Readers
import WebSocket.Proofs.Session.Repose
import WebSocket.Proofs.Session.Resemblance

/-!
# Connecting again

A closed client that connects again is as good as new. Whatever its last connection left behind, it
goes on like a new client with the same settings that connects for the first time, up to keys,
responses and masks (`like_new_of_reachable`). The messages that were not read yet are the one
exception: readers get these first, and the new client is compared without those readers
(`withoutReceives`).
-/

namespace WebSocket

open WebSocket.Action

variable (corr : Correspondence)

/-! ### Two runs -/

inductive Moment.Alike : Moment → Moment → Prop
  | called {call call' : Call} (calls : call.Alike corr call') :
    Moment.Alike (.called call) (.called call')
  | changed {c c' d d' : Client} (before : c.phase = d.phase) (after : c'.phase = d'.phase) :
    Moment.Alike (.changed c c') (.changed d d')
  | asked {r r' : Request} (requests : r.Alike corr r') : Moment.Alike (.asked r) (.asked r')
  | answered {r r' : Request} {answer : r.Answer} {answer' : r'.Answer}
    (requests : r.Alike corr r') (answers : HEq answer answer') :
    Moment.Alike (.answered r answer) (.answered r' answer')
  | returned (reply : Reply) : Moment.Alike (.returned reply) (.returned reply)

/-- The same choice, if requests that are alike are answered the same way. That rules out no answer
(`Session.exists_alike_answer`). -/
inductive Choice.Alike : Choice → Choice → Prop
  | call {call call' : Call} (calls : call.Alike corr call') :
    Choice.Alike (.call call) (.call call')
  | answer {how how' : (r : Request) → r.Answer}
    (answers : ∀ r r', r.Alike corr r' → HEq (how r) (how' r')) :
    Choice.Alike (.answer how) (.answer how')
  | goOn : Choice.Alike .goOn .goOn

inductive Halt.Alike (old : List Message) : Halt → Halt → Prop
  | asking {r r' : Request} {next : r.Answer → Action Reply} {next' : r'.Answer → Action Reply}
    (requests : r.Alike corr r')
    (later : ∀ answer answer', HEq answer answer' →
      (next answer).Alike corr old Eq (next' answer')) :
    Halt.Alike old (.asking r next) (.asking r' next')
  | waiting {limit : Option Duration} {ready ready' : Client → Bool} {next next' : Action Reply}
    (readies : ∀ rest c d, rest <:+ old → c.Alike corr rest d → ready c = ready' d)
    (later : next.Alike corr old Eq next') :
    Halt.Alike old (.waiting limit ready next) (.waiting limit ready' next')

structure Caller.Alike (old : List Message) (caller caller' : Caller) : Prop where
  call : caller.call.Alike corr caller'.call
  halt : caller.halt.Alike corr old caller'.halt

/-- What happened since two moments, `h` and `h'`, is alike, except that some messages were read in
the first run only. -/
inductive Traces (h h' : List Moment) : List Message → List Moment → List Moment → Prop
  | start : Traces h h' [] h h'
  | both {read : List Message} {k k' : List Moment} {moment moment' : Moment}
    (before : Traces h h' read k k') (alike : moment.Alike corr moment') :
    Traces h h' read (moment :: k) (moment' :: k')
  | ahead {read : List Message} {k k' : List Moment} (before : Traces h h' read k k')
    (limit : Option Duration) (message : Message) {c c' : Client} (same : c'.phase = c.phase) :
    Traces h h' (read ++ [message])
      (.returned (.message (some message)) :: .changed c c' :: .changed c c ::
        .called (.receive limit) :: k) k'

/-- Two sessions that went the same way since two moments, `h` and `h'`. In the first one the
messages `read` were there before and have been read, and the messages `rest` still wait. -/
structure Session.Matches (h h' : List Moment) (read rest : List Message) (s t : Session) :
    Prop where
  client : s.client.Alike corr rest t.client
  callers : List.Forall₂ (Caller.Alike corr rest) s.callers t.callers
  history : Traces corr h h' read s.history t.history

/-- The choices without the first readers. -/
def withoutReceives : Nat → List Choice → List Choice
  | 0, choices => choices
  | _ + 1, [] => []
  | count + 1, .call (.receive _) :: later => withoutReceives count later
  | count + 1, choice :: later => choice :: withoutReceives (count + 1) later

variable {corr} {h h' : List Moment} {read rest : List Message} {s t : Session}

/-! ### Answers -/

theorem SameParcel.length_eq {bytes bytes' : Bytes} (same : SameParcel bytes bytes') :
    bytes.length = bytes'.length := by
  obtain ⟨parcel, key, key', rfl, rfl⟩ := same
  simp only [Parcel.encode, Frame.encodeFinal, Frame.lengthAndKey]
  split_ifs <;> simp [Frame.length_cover, MaskKey.toBytes]

theorem Request.takenUp_alike (r r' : Request) (requests : r.Alike corr r') :
    HEq r.takenUp r'.takenUp := by
  cases requests with
  | same | connected | sendAsync => rfl
  | send same | sendWithin _ same => exact heq_of_eq (congrArg Except.ok same.length_eq)

theorem Request.answer_of_ctorIdx {r r' : Request} (same : r.ctorIdx = r'.ctorIdx) :
    r.Answer = r'.Answer := by
  cases r <;> cases r' <;> first | rfl | cases same

/-- Any answer to a request can be given to all requests of its kind. -/
theorem Choice.exists_alike (r : Request) (answer : r.Answer) :
    ∃ how : (r : Request) → r.Answer, how r = answer ∧
      Choice.Alike corr (.answer how) (.answer how) := by
  refine ⟨fun asked => if same : r.ctorIdx = asked.ctorIdx then
    cast (Request.answer_of_ctorIdx same) answer else asked.takenUp, ?_, .answer ?_⟩
  · exact dif_pos rfl
  · intro asked asked' requests
    have kinds : asked.ctorIdx = asked'.ctorIdx := by cases requests <;> rfl
    by_cases same : r.ctorIdx = asked.ctorIdx
    · rw [dif_pos same, dif_pos (same.trans kinds)]
      exact (cast_heq _ _).trans (cast_heq _ _).symm
    · rw [dif_neg same, dif_neg (kinds ▸ same)]
      exact Request.takenUp_alike asked asked' requests

/-- Whatever is answered in a session, a choice that is alike to itself does it. -/
theorem Session.exists_alike_answer (s : Session) (how : (r : Request) → r.Answer) :
    ∃ how' : (r : Request) → r.Answer, s.turn? (.answer how') = s.turn? (.answer how) ∧
      Choice.Alike corr (.answer how') (.answer how') := by
  obtain ⟨c, callers, h⟩ := s
  rcases callers with _ | ⟨⟨call, since, ⟨r, next⟩ | _⟩, callers⟩
  · exact ⟨Request.takenUp, rfl, .answer Request.takenUp_alike⟩
  · obtain ⟨how', same, alike⟩ := @Choice.exists_alike corr r (how r)
    exact ⟨how', by simp only [Session.turn?, same], alike⟩
  · exact ⟨Request.takenUp, rfl, .answer Request.takenUp_alike⟩

/-! ### Turns -/

theorem matches_act {call call' : Call} (calls : call.Alike corr call') {since since' : List Moment}
    {callers callers' : List Caller}
    (outer : List.Forall₂ (Caller.Alike corr rest) callers callers') {x y : Action Reply}
    (alike : x.Alike corr rest Eq y) {c d : Client} (clients : c.Alike corr rest d)
    {k k' : List Moment} (traces : Traces corr h h' read k k') :
    Session.Matches corr h h' read rest (.act call since callers x c k)
      (.act call' since' callers' y d k') := by
  -- The clients stay alike along the course that both actions take, to where they give up control.
  induction alike generalizing c d k k' with
  | done same =>
    cases same
    exact ⟨clients, outer, .both traces (.returned _)⟩
  | access changes _ ih =>
    have changed := changes rest c d List.suffix_rfl clients
    exact ih rest c d List.suffix_rfl clients changed
      (.both traces (.changed clients.phase changed.phase))
  | ask asked later _ =>
    exact ⟨clients, .cons ⟨calls, .asking asked later⟩ outer, .both traces (.asked asked)⟩
  | wait readies later ih =>
    unfold Session.act
    rw [readies rest c d List.suffix_rfl clients]
    split
    · exact ih clients traces
    · exact ⟨clients, .cons ⟨calls, .waiting readies later⟩ outer, traces⟩

/-- A choice that is not of a reader who is ahead is made in both sessions or in none. -/
theorem Session.Matches.turn (matched : Session.Matches corr h h' read rest s t)
    {choice choice' : Choice} (choices : choice.Alike corr choice')
    (unread : ∀ limit, choice = .call (.receive limit) → rest = []) :
    Option.Rel (Session.Matches corr h h' read rest)
      ((s.turn? choice).map fun turn => turn.play s.client)
      ((t.turn? choice').map fun turn => turn.play t.client) := by
  obtain ⟨c, callers, k⟩ := s
  obtain ⟨d, callers', k'⟩ := t
  obtain ⟨clients, outer, traces⟩ := matched
  cases choices with
  | @call call call' calls =>
    have alike : call.action.Alike corr rest Eq call'.action := by
      refine Call.alike calls fun receives => ?_
      cases call with
      | receive limit => exact unread limit rfl
      | _ => cases receives
    exact .some (matches_act calls outer alike clients (.both traces (.called calls)))
  | @answer how how' answers =>
    cases outer with
    | nil => exact .none
    | @cons caller caller' callers callers' first outer =>
      obtain ⟨call, since, halt⟩ := caller
      obtain ⟨call', since', halt'⟩ := caller'
      obtain ⟨calls, halts⟩ := first
      cases halts with
      | waiting readies later => exact .none
      | asking requests later =>
        have same := answers _ _ requests
        exact .some (matches_act calls outer (later _ _ same) clients
          (.both traces (.answered requests same)))
  | goOn =>
    cases outer with
    | nil => exact .none
    | @cons caller caller' callers callers' first outer =>
      obtain ⟨call, since, halt⟩ := caller
      obtain ⟨call', since', halt'⟩ := caller'
      obtain ⟨calls, halts⟩ := first
      cases halts with
      | asking requests later => exact .none
      | waiting readies later =>
        simp only [Session.turn?]
        rw [readies rest c d List.suffix_rfl clients]
        split
        · exact .some (matches_act calls outer later clients traces)
        · exact .none

/-! ### Readers who are ahead -/

theorem Halt.Alike.mono {old fewer : List Message} {halt halt' : Halt}
    (alike : halt.Alike corr old halt') (shorter : fewer <:+ old) :
    halt.Alike corr fewer halt' := by
  cases alike with
  | asking requests later =>
    exact .asking requests fun answer answer' same => (later answer answer' same).mono shorter
  | waiting readies later =>
    exact .waiting (fun rest c d short => readies rest c d (short.trans shorter))
      (later.mono shorter)

theorem Client.Alike.isReady_of_cons {message : Message} {c d : Client}
    (alike : c.Alike corr (message :: rest) d) : c.mailbox.isReady = true := by
  cases alike
  rfl

/-- A reader takes a message that waits in the first session only. -/
theorem Session.Matches.handOut {message : Message}
    (matched : Session.Matches corr h h' read (message :: rest) s t) (limit : Option Duration) :
    Session.Matches corr h h' (read ++ [message]) rest (s.handOut limit) t := by
  obtain ⟨c, callers, k⟩ := s
  obtain ⟨clients, outer, traces⟩ := matched
  have shorter : rest <:+ message :: rest := List.suffix_cons _ _
  refine ⟨?_, outer.imp fun caller caller' alike => ⟨alike.call, alike.halt.mono shorter⟩, ?_⟩
  · generalize t.client = d at clients
    cases clients with
    | intro d masks keys responses => exact .of_eq keys responses rfl
  · have first : c.mailbox.messages.head? = some message := by
      generalize t.client = d at clients
      cases clients
      rfl
    simp only [Session.handOut, first]
    exact .ahead traces limit message rfl

/-! ### Runs -/

theorem rel_bind {α β γ δ : Type} {p : α → β → Prop} {q : γ → δ → Prop} {x : Option α}
    {y : Option β} {f : α → Option γ} {g : β → Option δ} (first : Option.Rel p x y)
    (later : ∀ value value', p value value' → Option.Rel q (f value) (g value')) :
    Option.Rel q (x.bind f) (y.bind g) := by
  cases first with
  | none => exact .none
  | some same => exact later _ _ same

theorem exists_of_rel {α β : Type} {p : α → β → Prop} {x : Option α} {y : Option β}
    (rel : Option.Rel p x y) {value : α} (some : x = .some value) :
    ∃ value', y = .some value' ∧ p value value' := by
  subst some
  cases rel with
  | some same => exact ⟨_, rfl, same⟩

theorem Session.after_cons (choice : Choice) (later : List Choice) (s : Session) :
    Session.after (choice :: later) s =
      ((s.turn? choice).map fun turn => turn.play s.client).bind (Session.after later) := by
  rw [Option.bind_map]
  rfl

theorem Session.after_receive {s : Session} (ready : s.client.mailbox.isReady = true)
    (limit : Option Duration) (later : List Choice) :
    Session.after (.call (.receive limit) :: later) s = Session.after later (s.handOut limit) :=
  congrArg (Session.after later) (play_of_ready ready rfl)

theorem withoutReceives_cons {choice : Choice}
    (unread : ∀ limit, choice = .call (.receive limit) → rest = []) (later : List Choice) :
    withoutReceives rest.length (choice :: later) =
      choice :: withoutReceives rest.length later := by
  cases rest with
  | nil => simp only [List.length_nil, withoutReceives]
  | cons message rest =>
    cases choice with
    | call call =>
      cases call with
      | receive limit => cases unread limit rfl
      | _ => rfl
    | _ => rfl

theorem Choice.Alike.receives {choice choice' : Choice} (alike : choice.Alike corr choice')
    {limit : Option Duration} (reads : choice' = .call (.receive limit)) :
    choice = .call (.receive limit) := by
  subst reads
  cases alike with
  | call calls =>
    cases calls with
    | same => rfl

/-- Two sessions that go the same way, while readers of the first one take one after another of the
messages that waited at first. -/
def Session.Follows (corr : Correspondence) (h h' : List Moment) (waited : List Message)
    (s t : Session) : Prop :=
  ∃ read rest, waited = read ++ rest ∧ Session.Matches corr h h' read rest s t

/-- Readers that come while messages wait in the first session only get these, and the second
session goes on without the readers. Everything else is the same in both. -/
theorem Session.Matches.after {choices choices' : List Choice}
    (alike : List.Forall₂ (Choice.Alike corr) choices choices')
    (matched : Session.Matches corr h h' read rest s t) :
    Option.Rel (Session.Follows corr h h' (read ++ rest)) (Session.after choices s)
      (Session.after (withoutReceives rest.length choices') t) := by
  induction alike generalizing read rest s t with
  | nil =>
    have none : withoutReceives rest.length [] = [] := by cases rest <;> rfl
    rw [none]
    exact .some ⟨read, rest, rfl, matched⟩
  | @cons choice choice' later later' first others ih =>
    -- Only a reader who comes while messages wait is ahead, and such a reader never waits.
    by_cases together : ∀ limit, choice = .call (.receive limit) → rest = []
    · rw [withoutReceives_cons fun limit reads => together limit (first.receives reads),
        Session.after_cons, Session.after_cons]
      exact rel_bind (matched.turn first together) fun s t matched => ih matched
    · push Not at together
      obtain ⟨limit, rfl, waits⟩ := together
      obtain ⟨message, rest, rfl⟩ := List.exists_cons_of_ne_nil waits
      have handed := ih (matched.handOut limit)
      rw [← Session.after_receive matched.client.isReady_of_cons, List.append_assoc] at handed
      cases first with
      | call calls =>
        cases calls with
        | same => exact handed

/-! ### A first attempt -/

/-- A new client with the settings and the handlers of another. -/
def Client.renewed (c : Client) (seed : UInt32) : Client :=
  { Client.ofConfig c.config seed with listener := c.listener, receiver := c.receiver }

/-- The calls that give a new client the handlers of another. -/
def Client.handlers (c : Client) : List Choice :=
  c.listener.toList.map (fun listener => .call (.listen listener)) ++
    [.call (.deliverTo c.receiver)]

theorem Client.after_handlers (c : Client) (seed : UInt32) :
    ∃ h, Session.after c.handlers (.ofConfig c.config seed) = some ⟨c.renewed seed, [], h⟩ := by
  unfold handlers renewed
  cases c.listener <;> exact ⟨_, rfl⟩

theorem Client.alike_begun {c : Client} (closed : c.phase = .closed)
    (free : c.gate.isHeld = false) (reset : c.decoder.reset = .ofConfig c.config)
    {key key' : HandshakeKey} (keys : corr.keys key key') (awaited : Bool) (seed : UInt32) :
    (c.beginConnect key awaited).1 = true ∧
      (c.beginConnect key awaited).2.Alike corr c.mailbox.messages
        ((c.renewed seed).beginConnect key' awaited).2 := by
  obtain ⟨config, ⟨phase, sent, received⟩, _, _, _, _, _, decoder, _, ⟨messages, isClosed⟩,
    ⟨masks, isHeld⟩, listener, receiver⟩ := c
  cases closed
  cases free
  have decoders : decoder.reset = (Decoder.ofConfig config).reset := reset
  have waiting : messages = messages ++ [] := (List.append_nil messages).symm
  refine ⟨rfl, .of_eq (.some keys) .none ?_⟩
  change Client.mk config _ _ _ _ _ _ decoder.reset _ ⟨messages, false⟩ _ _ _ =
    Client.mk config _ _ _ _ _ _ (Decoder.ofConfig config).reset _ ⟨messages ++ [], false⟩ _ _ _
  rw [← decoders, ← waiting]
  rfl

/-- A call that makes an attempt. -/
def Call.isAttempt : Call → Bool
  | connect _ | connectAsync _ => true
  | _ => false

theorem Call.attempt_alike {call call' : Call} (attempt : call.isAttempt = true)
    (calls : call.Alike corr call') (old : List Message) :
    ∃ key key' awaited k k', corr.keys key key' ∧
      call.action = step (Client.beginConnect key awaited) >>= k ∧
      call'.action = step (Client.beginConnect key' awaited) >>= k' ∧
      (k true).Alike corr old Eq (k' true) := by
  -- How a call goes on after its first step does not depend on the clients, so any two will do.
  have closed : (Client.ofConfig {} 0).Alike corr [] (.ofConfig {} 0) := .of_eq .none .none rfl
  cases call with
  | connect key =>
    cases calls with
    | same keyless => cases keyless
    | connect keys =>
      have alike := @Call.alike corr old _ _ (.connect keys) nofun
      have goesOn := alike.later (bind_assoc _ _ _) (bind_assoc _ _ _) List.nil_suffix closed
      exact ⟨_, _, true, _, _, keys, bind_assoc _ _ _, bind_assoc _ _ _, goesOn⟩
  | connectAsync key =>
    cases calls with
    | same keyless => cases keyless
    | connectAsync keys =>
      have alike := @Call.alike corr old _ _ (.connectAsync keys) nofun
      have goesOn := alike.later (bind_assoc _ _ _) (bind_assoc _ _ _) List.nil_suffix closed
      exact ⟨_, _, false, _, _, keys, bind_assoc _ _ _, bind_assoc _ _ _, goesOn⟩
  | _ => cases attempt

/-- The first call of a new attempt. What the old connection left behind is gone after the stroke in
which the attempt begins. -/
theorem matches_attempt {call call' : Call} (attempt : call.isAttempt = true)
    (calls : call.Alike corr call') {c : Client} (closed : c.phase = .closed)
    (free : c.gate.isHeld = false) (reset : c.decoder.reset = .ofConfig c.config) (seed : UInt32)
    (h h' : List Moment) :
    Session.Matches corr h h' [] c.mailbox.messages
      (.act call h [] call.action c (.called call :: h))
      (.act call' h' [] call'.action (c.renewed seed) (.called call' :: h')) := by
  obtain ⟨key, key', awaited, k, k', keys, first, first', goesOn⟩ :=
    Call.attempt_alike attempt calls c.mailbox.messages
  obtain ⟨begun, clients⟩ := Client.alike_begun closed free reset keys awaited seed
  have traces : Traces corr h h' [] (.called call :: h) (.called call' :: h') :=
    .both .start (.called calls)
  have changed := traces.both (.changed (d := c.renewed seed) closed clients.phase)
  rw [first, first']
  show Session.Matches corr h h' [] c.mailbox.messages
    (.act call h [] (k (c.beginConnect key awaited).1) _ _) _
  rw [begun]
  exact matches_act calls .nil goesOn clients changed

/-- A closed client that no call is using, whatever its history, goes on from a connect like a new
one with the same settings and handlers. Both do and ask the same, with their own keys, responses
and masks, and all calls return the same in both. Only the messages that still wait are read before
all others, and the readers that get them are left out of the second session. -/
theorem like_new_of_reachable {config : Config} {seed : UInt32} {s : Session}
    (reachable : Session.Reachable config seed s) (idle : s.callers = [])
    (closed : s.client.phase = .closed) {seed' : UInt32} {new : Session}
    (made : Session.after s.client.handlers (.ofConfig config seed') = some new)
    {call call' : Call} (attempt : call.isAttempt = true) (calls : call.Alike corr call')
    {choices choices' : List Choice} (alike : List.Forall₂ (Choice.Alike corr) choices choices') :
    let waiting := s.client.mailbox.messages
    Option.Rel (Session.Follows corr s.history new.history waiting)
      (Session.after (.call call :: choices) s)
      (Session.after (.call call' :: withoutReceives waiting.length choices') new) := by
  have reads := reads_of_reachable reachable
  have rests := Session.atRest_of_reachable reachable idle
  obtain ⟨c, callers, h⟩ := s
  cases idle
  obtain rfl : c.config = config := reads.settings
  obtain ⟨h', renewed⟩ := c.after_handlers seed'
  obtain rfl : new = ⟨c.renewed seed', [], h'⟩ := Option.some.inj (made.symm.trans renewed)
  exact (matches_attempt attempt calls closed rests.free reads.reset seed' h h').after alike

/-! ### After an attempt that was declined -/

/-- The transport completes the handshake while it is asked to connect, a message arrives and a part
of another, and then the attempt is declined. -/
def openedThenDeclined : List Choice :=
  openedWhileAsked ++ [.call (.bytesArrived [0x81, 0x02, 0x68, 0x69, 0x01, 0x01, 0x61, 0x80]),
    .answer Request.declined]

/-- The response that answers a key. -/
def HandshakeKey.goodResponse (key : HandshakeKey) : UpgradeResponse :=
  { status := 101
    headers := [("Upgrade", "websocket"), ("Connection", "Upgrade"),
      ("Sec-WebSocket-Accept", key.accept)] }

/-- A connection in which both sides say something, and two messages are read. -/
def talk (key : HandshakeKey) : List Choice :=
  [.answer Request.takenUp, .call (.responseArrived key.goodResponse), .call .handshakeCompleted,
    .answer Request.takenUp, .call (.receive none), .call (.sendAsync (.text "ho")),
    .answer Request.takenUp, .call (.bytesArrived [0x81, 0x01, 0x62]), .call (.receive none)]

theorem like_new_of_reachable_declined :
    ∃ corr s new t t', Session.after openedThenDeclined (.ofConfig {} 0) = some s ∧
      s.client.decoder.buffer = [0x80] ∧ s.client.mailbox.messages = [.text "hi"] ∧
      Session.after s.client.handlers (.ofConfig {} 1) = some new ∧
      Session.after (.call (.connectAsync (.ofNonce [])) :: talk (.ofNonce [])) s = some t ∧
      t.client.phase = .opened ∧
      Session.after (.call (.connectAsync (.ofNonce [1])) ::
        withoutReceives 1 (talk (.ofNonce [1]))) new = some t' ∧
      Session.Follows corr s.history new.history [.text "hi"] t t' := by
  have played : (Session.after openedThenDeclined (.ofConfig {} 0)).bind (fun s =>
      (Session.after (.call (.connectAsync (.ofNonce [])) :: talk (.ofNonce [])) s).map fun t =>
        (s.callers.length, s.client.phase, s.client.decoder.buffer, s.client.mailbox.messages,
          t.client.phase)) =
      some (0, .closed, [0x80], [.text "hi"], .opened) := by
    decide +kernel
  obtain ⟨s, made, played⟩ := Option.bind_eq_some_iff.mp played
  obtain ⟨t, again, told⟩ := Option.map_eq_some_iff.mp played
  simp only [Prod.mk.injEq, List.length_eq_zero_iff] at told
  obtain ⟨idle, closed, buffered, waiting, opened⟩ := told
  have reachable : Session.Reachable {} 0 s := .after .start made
  obtain ⟨h', renewed⟩ := s.client.after_handlers 1
  rw [(reads_of_reachable reachable).settings] at renewed
  let corr := Correspondence.ofKeys fun key key' => key = .ofNonce [] ∧ key' = .ofNonce [1]
  have answers : Choice.Alike corr (.answer Request.takenUp) (.answer Request.takenUp) :=
    .answer Request.takenUp_alike
  have responses : corr.responses (HandshakeKey.ofNonce []).goodResponse
      (HandshakeKey.ofNonce [1]).goodResponse := by
    rintro key key' ⟨rfl, rfl⟩
    decide +kernel
  have talks : List.Forall₂ (Choice.Alike corr) (talk (.ofNonce [])) (talk (.ofNonce [1])) :=
    .cons answers (.cons (.call (.responseArrived responses)) (.cons (.call (.same rfl))
      (.cons answers (.cons (.call (.same rfl)) (.cons (.call (.same rfl)) (.cons answers
        (.cons (.call (.same rfl)) (.cons (.call (.same rfl)) .nil))))))))
  have keys : corr.keys (.ofNonce []) (.ofNonce [1]) := ⟨rfl, rfl⟩
  have follows :=
    like_new_of_reachable reachable idle closed renewed rfl (.connectAsync keys) talks
  rw [waiting] at follows
  obtain ⟨t', went, same⟩ := exists_of_rel follows again
  exact ⟨corr, s, _, t, t', made, buffered, waiting, renewed, again, opened, went, same⟩

end WebSocket
