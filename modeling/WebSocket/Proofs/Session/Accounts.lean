import WebSocket.Proofs.Session.Legal
import WebSocket.Proofs.Session.Ledger

/-!
# No message is lost

As long as deliveries are made one at a time, every message that an attempt completes is dispatched
once and in order, to whom was chosen then, and what was put into the mailbox is taken out of it or
waits there (`messages_of_reachable`). A delivery owes the messages that it read and has not
dispatched yet; any other call, also one made meanwhile, leaves this debt alone (`Spares`).
-/

namespace WebSocket

open WebSocket.Action

variable {α β : Type} {config : Config} {rest : List Message} {c c' : Client}
  {h h' h'' : List Moment}

/-! ### The duty -/

structure Spans (h h' : List Moment) : Prop where
  callers : underWay h' = underWay h
  serial : isSerial h' → isSerial h

theorem Spans.refl (h : List Moment) : Spans h h := ⟨rfl, id⟩

theorem Spans.trans (first : Spans h h') (later : Spans h' h'') : Spans h h'' :=
  ⟨later.callers.trans first.callers, first.serial ∘ later.serial⟩

theorem Spans.delivering (spans : Spans h h') : delivering h' = delivering h := by
  rw [WebSocket.delivering, spans.callers, WebSocket.delivering]

/-- What a call owes a delivery that is under way: it neither dispatches nor reads. -/
structure Spares (config : Config) (h h' : List Moment) : Prop extends Spans h h' where
  dispatches : isSerial h' → delivering h → dispatches h' = dispatches h
  decoded : isSerial h' → delivering h → decoded config h' = decoded config h

theorem Spares.trans (first : Spares config h h') (later : Spares config h' h'') :
    Spares config h h'' := by
  refine ⟨first.toSpans.trans later.toSpans, fun serial delivers => ?_, fun serial delivers => ?_⟩
  · rw [later.dispatches serial (first.delivering.trans delivers),
      first.dispatches (later.serial serial) delivers]
  · rw [later.decoded serial (first.delivering.trans delivers),
      first.decoded (later.serial serial) delivers]

/-- The messages are accounted for. Only a delivery that is under way has messages left. -/
structure Accounted (config : Config) (c : Client) (h : List Moment) : Prop where
  current : Current config c h
  balanced : isSerial h →
    ∃ rest, Balanced config rest c h ∧ (delivering h = false → rest = [])

def accounting (config : Config) : Duty where
  holds := Accounted config
  keeps _ h _ h' := Spares config h h'
  refl _ h := ⟨.refl h, fun _ _ => rfl, fun _ _ => rfl⟩
  trans := Spares.trans

/-! ### Actions that leave the messages alone -/

/-- A change that leaves alone the messages that wait and who is given messages. -/
structure Sparing (c c' : Client) : Prop where
  change : Change c c'
  waits : c'.mailbox.messages = c.mailbox.messages
  receiver : c'.receiver = c.receiver

theorem ApartStroke.sparing (stroke : ApartStroke c c') : Sparing c c' := by
  suffices c'.mailbox.messages = c.mailbox.messages ∧ c'.receiver = c.receiver from
    ⟨.inl stroke.stroke, this.1, this.2⟩
  obtain ⟨stroke, isAmong⟩ := stroke
  cases stroke with
  | look | closeLocally | closeRemotely => exact ⟨rfl, rfl⟩
  | abortConnect | disconnected | listen | stopAwaiting => exact ⟨rfl, rfl⟩
  | enqueue | dequeue | deliverTo => cases isAmong
  | beginConnect key awaited =>
    unfold Client.beginConnect
    split <;> exact ⟨rfl, rfl⟩
  | beginDisconnect =>
    unfold Client.beginDisconnect
    split <;> exact ⟨rfl, rfl⟩
  | beginClose code =>
    unfold Client.beginClose
    repeat' (first | exact ⟨rfl, rfl⟩ | split)
  | judgeResponse response =>
    unfold Client.judgeResponse
    repeat' (first | exact ⟨rfl, rfl⟩ | split)
  | completeHandshake =>
    unfold Client.completeHandshake
    repeat' (first | exact ⟨rfl, rfl⟩ | split)

theorem GateStroke.sparing (stroke : GateStroke c c') : Sparing c c' := by
  have change : Change c c' := .inr stroke
  rw [stroke.eq] at change ⊢
  exact ⟨change, rfl, rfl⟩

theorem Action.Apart.spares {sends : Parcel → Prop} {x : Action α} (apart : x.Apart sends) :
    x.Every (fun _ => True) Sparing fun r => r.isDelivery = false :=
  apart.every (fun _ _ => ApartStroke.sparing)
    (fun _ => ApartStroke.sparing (.of .look rfl))
    (fun _ _ _ _ => GateStroke.sparing) (fun _ => And.right) (fun _ _ => rfl)
    fun _ _ _ _ => Request.isDelivery_of_frame

theorem Accounted.silent (accounted : Accounted config c h) (silent : Silent h h')
    (delivers : delivering h' = delivering h) (current : Current config c' h')
    (same : decoded config h' = decoded config h)
    (waits : c'.mailbox.messages = c.mailbox.messages) (receiver : c'.receiver = c.receiver) :
    Accounted config c' h' := by
  refine ⟨current, fun serial => ?_⟩
  obtain ⟨rest, balanced, none⟩ := accounted.balanced (silent.serial.symm.trans serial)
  refine ⟨rest, balanced.silent silent same waits receiver, fun idle => ?_⟩
  exact none (delivers.symm.trans idle)

theorem Accounted.idle (accounted : Accounted config c h) {moment : Moment}
    (idle : moment.isIdle) (silent : Silent h (moment :: h))
    (delivers : delivering (moment :: h) = delivering h) : Accounted config c (moment :: h) :=
  accounted.silent silent delivers (accounted.current.idle idle) (decoded_idle idle h) rfl rfl

theorem Spares.of_silent (silent : Silent h h') (callers : underWay h' = underWay h)
    (same : WebSocket.decoded config h' = WebSocket.decoded config h) : Spares config h h' :=
  ⟨⟨callers, fun serial => silent.serial.symm.trans serial⟩, fun _ _ => silent.dispatches,
    fun _ _ => same⟩

theorem tolerates_accounting (config : Config) :
    Tolerates (accounting config) Sparing fun r => r.isDelivery = false := by
  refine ⟨?_, ?_, ?_⟩
  · intro c c' h accounted sparing
    obtain ⟨current, same⟩ := accounted.current.change sparing.change
    have silent := silent_changed (congrArg List.length sparing.waits).le h
    exact ⟨accounted.silent silent rfl current same sparing.waits sparing.receiver,
      .of_silent silent rfl same⟩
  · intro c h r accounted other
    have silent := silent_asked other h
    exact ⟨accounted.idle rfl silent rfl, .of_silent silent rfl (decoded_idle rfl h)⟩
  · intro c h r answer accounted other
    have silent := silent_answered r answer h
    exact ⟨accounted.idle rfl silent rfl, .of_silent silent rfl (decoded_idle rfl h)⟩

theorem Action.Apart.does {sends : Parcel → Prop} {x : Action α} (apart : x.Apart sends) :
    x.Does (accounting config) (Accounted config) :=
  does_of_every (tolerates_accounting config) apart.spares

/-! ### Calls other than deliveries -/

theorem Moment.isIdle_called {call : Call} (read : call.isDelivery = false) :
    (Moment.called call).isIdle := by
  rw [isIdle, read]
  rfl

theorem Accounted.called {call : Call} (accounted : Accounted config c h)
    (read : call.isDelivery = false) (other : ∀ receiver, call ≠ .deliverTo receiver) :
    Accounted config c (.called call :: h) :=
  accounted.idle (Moment.isIdle_called read) (silent_called read other h) (delivering_called read h)

theorem Spares.returned {call : Call} (spares : Spares config (.called call :: h) h')
    (read : call.isDelivery = false) (reply : Reply) : Spares config h (.returned reply :: h') := by
  obtain ⟨⟨callers, before⟩, sameDispatches, sameDecoded⟩ := spares
  rw [dispatches_cons rfl] at sameDispatches
  rw [decoded_idle (Moment.isIdle_called read)] at sameDecoded
  rw [delivering_called read] at sameDispatches sameDecoded
  rw [isSerial_called read] at before
  refine ⟨⟨congrArg List.tail callers, before⟩, ?_, ?_⟩
  · rw [dispatches_cons rfl]
    exact sameDispatches
  · rw [decoded_idle rfl]
    exact sameDecoded

theorem Spares.delivering_returned {call : Call} (spares : Spares config (.called call :: h) h')
    (read : call.isDelivery = false) (reply : Reply) :
    delivering (.returned reply :: h') = delivering h' := by
  rw [spares.delivering, delivering_called read, WebSocket.delivering, underWay, spares.callers]
  rfl

theorem Accounted.returned {call : Call} {reply : Reply} (accounted : Accounted config c' h')
    (spares : Spares config (.called call :: h) h') (read : call.isDelivery = false)
    (empty : reply.message? = none) : (accounting config).Met c h reply c' h' := by
  have delivers := spares.delivering_returned read reply
  exact ⟨accounted.idle rfl (silent_returned empty h') delivers, spares.returned read reply⟩

/-- Only a call that receives gives a message. -/
theorem Call.gives {call : Call} (apart : call.isApart) :
    call.action.Gives fun reply => reply.message? = none := by
  cases call with
  | receive | deliverTo | bytesArrived => cases apart
  | _ => exact gives_bind _ fun _ => rfl

theorem Call.assured_of_apart {call : Call} (apart : call.isApart) :
    call.Assured (accounting config) := by
  have read : call.isDelivery = false := by cases call <;> first | rfl | cases apart
  have other : ∀ receiver, call ≠ .deliverTo receiver := by
    rintro receiver rfl
    cases apart
  intro c h accounted
  have does : call.action.Does (accounting config) (Accounted config) := (Call.apart apart).does
  have assured := (does c (.called call :: h) (accounted.called read other)).gives
    (Call.gives apart)
  exact assured.mono fun reply c' h' ⟨⟨later, spares⟩, empty⟩ => later.returned spares read empty

theorem Call.assured_deliverTo (receiver : Option String) :
    (Call.deliverTo receiver).Assured (accounting config) := by
  intro c h ⟨current, balanced⟩
  let h' : List Moment := .changed c { c with receiver } :: .called (.deliverTo receiver) :: h
  show (accounting config).Met c h .none { c with receiver } h'
  have called := current.idle (rfl : (Moment.called (.deliverTo receiver)).isIdle)
  obtain ⟨current', same⟩ := called.change (.inl (.of (.deliverTo receiver) rfl))
  have accounted : Accounted config { c with receiver } h' := by
    refine ⟨current', fun serial => ?_⟩
    obtain ⟨rest, balanced, none⟩ := balanced serial
    exact ⟨rest, balanced.choose receiver (same.trans (decoded_idle rfl h)), none⟩
  refine accounted.returned ⟨⟨rfl, id⟩, fun _ _ => ?_, fun _ _ => same⟩ rfl rfl
  exact dispatches_cons (Moment.dispatches_changed (Nat.le_refl _)) _

/-- A message is taken out of the mailbox only where the call returns it. -/
theorem Call.assured_receive (limit : Option Duration) :
    (Call.receive limit).Assured (accounting config) := by
  intro c h accounted
  have read : (Call.receive limit).isDelivery = false := rfl
  have called := accounted.called read nofun
  refine assures_bind.mpr (assures_bind.mpr (assures_get.mpr (assures_bind.mpr ?_)))
  have looks : Sparing c c := ApartStroke.sparing (.of .look rfl)
  obtain ⟨looked, kept⟩ := (tolerates_accounting config).changed called looks
  have waits : (waitFor (limit <|> c.receiveTimeout) fun c => c.mailbox.isReady).Does
      (accounting config) (Accounted config) :=
    does_of_every (tolerates_accounting config) (every_waitFor _ _)
  refine (waits.after looked kept).mono fun _ c₁ h₁ ⟨⟨current, balanced⟩, spares⟩ => ?_
  refine assures_step.mpr ?_
  obtain ⟨current', same⟩ := current.change (.inl (.of .dequeue rfl))
  have spares' := spares.trans (.of_silent (silent_changed c₁.length_dequeue h₁) rfl same)
  have under := spares'.delivering_returned read (.message c₁.dequeue.1)
  refine ⟨⟨current'.idle rfl, fun serial => ?_⟩, spares'.returned read _⟩
  obtain ⟨rest, balanced, none⟩ := balanced serial
  exact ⟨rest, balanced.dequeue same, fun idle => none (under.symm.trans idle)⟩

/-! ### Deliveries -/

/-- A delivery is under way and has messages left to dispatch. -/
structure Owes (config : Config) (rest : List Message) (c : Client) (h : List Moment) : Prop where
  current : Current config c h
  delivering : delivering h
  balanced : isSerial h → Balanced config rest c h

theorem Owes.accounted (owes : Owes config rest c h) : Accounted config c h :=
  ⟨owes.current, fun serial => ⟨rest, owes.balanced serial,
    fun idle => absurd idle (by simp [owes.delivering])⟩⟩

theorem Owes.spared (owes : Owes config rest c h) (accounted : Accounted config c' h')
    (spares : Spares config h h') : Owes config rest c' h' := by
  refine ⟨accounted.current, spares.delivering.trans owes.delivering, fun serial => ?_⟩
  have before := owes.balanced (spares.serial serial)
  obtain ⟨rest', balanced, -⟩ := accounted.balanced serial
  -- Neither side of the account moved, so the difference is the same.
  have same : (dispatches h).map Dispatch.message ++ rest' =
      (dispatches h).map Dispatch.message ++ rest := by
    rw [← before.decoded, ← spares.decoded serial owes.delivering, balanced.decoded,
      spares.dispatches serial owes.delivering]
  rw [← List.append_cancel_left same]
  exact balanced

/-- An action dispatches messages and leaves the rest. -/
def Action.Deals (config : Config) (messages : List Message) (x : Action α) : Prop :=
  ∀ rest c h, Owes config (messages ++ rest) c h → x.Assures (accounting config)
    (fun _ c' h' => Owes config rest c' h' ∧ Spans h h') c h

theorem Action.Apart.deals {sends : Parcel → Prop} {x : Action α} (apart : x.Apart sends) :
    x.Deals config [] := by
  intro rest c h owes
  refine (apart.does c h owes.accounted).mono fun _ c' h' ⟨accounted, spares⟩ => ?_
  exact ⟨owes.spared accounted spares, spares.toSpans⟩

theorem Action.deals_bind {x : Action α} {k : α → Action β} {messages later : List Message}
    (first : x.Deals config messages) (next : ∀ v, (k v).Deals config later) :
    (x >>= k).Deals config (messages ++ later) := by
  intro rest c h owes
  rw [List.append_assoc] at owes
  refine assures_bind.mpr ((first _ c h owes).mono fun v c' h' ⟨owes', spans⟩ => ?_)
  refine (next v rest c' h' owes').mono fun _ c'' h'' ⟨owes'', spans'⟩ => ?_
  exact ⟨owes'', spans.trans spans'⟩

theorem Owes.dispatch {message : Message} {moment : Moment}
    (owes : Owes config (message :: rest) c h) (current : Current config c' (moment :: h))
    (silent : underWay (moment :: h) = underWay h ∧ isSerial (moment :: h) = isSerial h)
    (balanced : Balanced config (message :: rest) c h → Balanced config rest c' (moment :: h)) :
    Owes config rest c' (moment :: h) ∧ Spans h (moment :: h) := by
  obtain ⟨callers, serial⟩ := silent
  have spans : Spans h (moment :: h) := ⟨callers, fun isSerial => serial ▸ isSerial⟩
  refine ⟨⟨current, spans.delivering.trans owes.delivering, fun isSerial => ?_⟩, spans⟩
  exact balanced (owes.balanced (spans.serial isSerial))

namespace Client

theorem deals_handOver (message : Message) : (handOver message).Deals config [message] := by
  intro rest c h owes
  refine assures_bind.mpr (assures_get.mpr ?_)
  have looks : Sparing c c := ApartStroke.sparing (.of .look rfl)
  obtain ⟨looked, kept⟩ := (tolerates_accounting config).changed owes.accounted looks
  have owes₁ := owes.spared looked kept
  cases chosen : c.receiver with
  | none =>
    have enqueues : Change c (c.enqueue message) := .inl (.of (.enqueue message) rfl)
    obtain ⟨current, same⟩ := owes₁.current.change enqueues
    obtain ⟨owes₂, spans⟩ := owes₁.dispatch current ⟨rfl, rfl⟩ fun balanced =>
      balanced.dispatch (by simp [Moment.dispatches, enqueue, Mailbox.push, chosen]) same rfl rfl
        (by simp [enqueue, Mailbox.push, chosen]) rfl
    exact ⟨owes₂, kept.toSpans.trans spans⟩
  | some receiver =>
    have asks : (Moment.asked (.deliver receiver message)).isIdle := rfl
    obtain ⟨owes₂, spans⟩ := owes₁.dispatch (owes₁.current.idle asks) ⟨rfl, rfl⟩ fun balanced =>
      balanced.dispatch (by simp [Moment.dispatches, chosen]) (decoded_idle asks _) rfl rfl
        (by simp [chosen]) rfl
    refine ⟨owes₂.accounted, fun answer c' h' accounted spares => ?_⟩
    have silent := silent_answered (.deliver receiver message) answer h'
    have answered := accounted.idle rfl silent rfl
    have spares' := spares.trans (.of_silent silent rfl (decoded_idle rfl h'))
    exact ⟨owes₂.spared answered spares', (kept.toSpans.trans spans).trans spares'.toSpans⟩

theorem deals_dispatch (event : Event) :
    (dispatch event).Deals config event.message?.toList := by
  have responds : event.message? = none → (dispatch event).Responds fun _ => True :=
    fun other => responds_dispatch other fun _ _ => trivial
  cases event with
  | message message => exact deals_handOver message
  | ping _ | pong _ | close _ => exact (responds rfl).links.apart.deals

theorem deals_dispatchAll (events : List Event) :
    (dispatchAll events).Deals config (events.filterMap Event.message?) := by
  induction events with
  | nil => exact fun rest c h owes => ⟨owes, .refl h⟩
  | cons event later ih =>
    have parts : (event :: later).filterMap Event.message? =
        event.message?.toList ++ later.filterMap Event.message? := by
      cases message : event.message? <;> simp [message]
    rw [parts]
    exact deals_bind (deals_dispatch event) fun _ => ih

theorem deals_actOn (read : List Event × Option Error) :
    (actOn read).Deals config (read.1.filterMap Event.message?) := by
  obtain ⟨events, fault⟩ := read
  have nothing : (pure () : Action Unit).Deals config [] := fun rest c h owes => ⟨owes, .refl h⟩
  rw [← List.append_nil (List.filterMap _ _)]
  refine deals_bind (deals_dispatchAll events) fun _ => ?_
  cases fault with
  | none => exact nothing
  | some e =>
    have responds : (protocolFault e).Responds fun _ => True :=
      composed_protocolFault answers_closing e trivial
    exact responds.links.apart.deals

end Client

theorem Call.assured_bytesArrived (data : Bytes) :
    (Call.bytesArrived data).Assured (accounting config) := by
  intro c h accounted
  refine assures_bind.mpr (assures_bind.mpr (assures_step.mpr ?_))
  obtain ⟨current, reads⟩ := accounted.current.delivery data
  let h₁ : List Moment := .changed c (c.absorb data).2 :: .called (.bytesArrived data) :: h
  have alone : isSerial h₁ → delivering h = false ∧ isSerial h := by
    intro serial
    simpa [h₁, isSerial, isDelivery] using serial
  have owes : Owes config ((c.absorb data).1.1.filterMap Event.message? ++ [])
      (c.absorb data).2 h₁ := by
    refine ⟨current, rfl, fun serial => ?_⟩
    obtain ⟨idle, serial⟩ := alone serial
    obtain ⟨rest, balanced, none⟩ := accounted.balanced serial
    -- No delivery was under way, so this one starts with nothing left from before.
    cases none idle
    rw [List.append_nil]
    exact balanced.delivery data reads
  refine (Client.deals_actOn (c.absorb data).1 [] _ h₁ owes).mono ?_
  rintro _ c' h' ⟨⟨current, under, balanced⟩, spans⟩
  have silent := silent_returned (rfl : Reply.none.message? = none) h'
  refine ⟨⟨current.idle rfl, fun serial => ⟨[], ?_, fun _ => rfl⟩⟩, ?_⟩
  · exact (balanced serial).silent silent (decoded_idle rfl h') rfl rfl
  · -- Where a delivery is under way there is no other one to spare.
    have never : isSerial h' → delivering h → False := by
      intro serial busy
      rw [(alone (spans.serial serial)).1] at busy
      cases busy
    exact ⟨⟨congrArg List.tail spans.callers, fun serial => (alone (spans.serial serial)).2⟩,
      fun serial busy => (never serial busy).elim, fun serial busy => (never serial busy).elim⟩

/-! ### Sessions -/

theorem Call.assured_accounting (call : Call) : call.Assured (accounting config) := by
  cases call with
  | receive limit => exact assured_receive limit
  | deliverTo receiver => exact assured_deliverTo receiver
  | bytesArrived data => exact assured_bytesArrived data
  | _ => exact assured_of_apart rfl

theorem accounted_of_reachable {allowed : Session → Turn → Prop} {seed : UInt32} {s : Session}
    (reachable : Session.ReachableBy allowed config seed s) :
    Accounted config s.client s.history := by
  have start : Accounted config (.ofConfig config seed) [] :=
    ⟨⟨reads_ofConfig config seed, rfl, fun active => absurd rfl active⟩,
      fun _ => ⟨[], ⟨rfl, rfl, trivial, rfl⟩, fun _ => rfl⟩⟩
  exact (Session.sound_of_assured Call.assured_accounting start reachable).holds

/-- As long as deliveries are made one at a time, the messages that the attempts complete are
dispatched once and in order, and all of them where no delivery is under way. Each goes to whom was
chosen last, or else into the mailbox; and what was taken out of the mailbox and what waits in it
are the messages that went there. -/
theorem messages_of_reachable {seed : UInt32} {s : Session}
    (reachable : Session.Reachable config seed s) (serial : isSerial s.history) :
    (dispatches s.history).map Dispatch.message <+: decoded config s.history ∧
      (delivering s.history = false →
        (dispatches s.history).map Dispatch.message = decoded config s.history) ∧
      Routed s.history ∧
      (∀ receiver, (given receiver s.history).Sublist (decoded config s.history)) ∧
      taken s.history ++ s.client.mailbox.messages = given none s.history := by
  obtain ⟨rest, balanced, none⟩ := (accounted_of_reachable reachable).balanced serial
  have whole := balanced.decoded
  refine ⟨⟨rest, whole.symm⟩, fun idle => ?_, balanced.routed, fun receiver => ?_,
    balanced.stored⟩
  · rw [whole, none idle, List.append_nil]
  · rw [whole]
    exact (List.filter_sublist.map _).trans (List.sublist_append_left _ _)

/-- A connection that goes down in the middle of a message, and another one on which a receiver is
given the first message. -/
def twoConnections : List Choice :=
  openConnection ++
    [.call (.bytesArrived [0x81, 0x01, 0x61, 0x01, 0x01, 0x62]), .call .transportDown] ++
  openConnection ++
    [.call (.deliverTo (some "main")), .call (.bytesArrived [0x81, 0x01, 0x63, 0x82]),
      .answer Request.takenUp, .call (.deliverTo none), .call (.bytesArrived [0x01, 0x64]),
      .call (.receive none)]

theorem messages_of_reachable_twoConnections :
    let messages : List Message := [.text "a", .text "c", .binary [0x64]]
    ∃ s, Session.after twoConnections (.ofConfig {} 0) = some s ∧ isSerial s.history ∧
      decoded {} s.history = messages ∧
      dispatches s.history =
        [⟨none, .text "a"⟩, ⟨some "main", .text "c"⟩, ⟨none, .binary [0x64]⟩] ∧
      taken s.history ++ s.client.mailbox.messages = [.text "a", .binary [0x64]] ∧
      (dispatches s.history).map Dispatch.message <+: decoded {} s.history ∧
      (delivering s.history = false →
        (dispatches s.history).map Dispatch.message = decoded {} s.history) ∧
      Routed s.history ∧
      (∀ receiver, (given receiver s.history).Sublist (decoded {} s.history)) ∧
      taken s.history ++ s.client.mailbox.messages = given none s.history := by
  intro messages
  have played : (Session.after twoConnections (.ofConfig {} 0)).map (fun s =>
      (isSerial s.history, decoded {} s.history, dispatches s.history,
        taken s.history ++ s.client.mailbox.messages)) =
      some (true, messages,
        [⟨none, .text "a"⟩, ⟨some "main", .text "c"⟩, ⟨none, .binary [0x64]⟩],
        [.text "a", .binary [0x64]]) := by
    decide +kernel
  obtain ⟨s, made, told⟩ := Option.map_eq_some_iff.mp played
  simp only [Prod.mk.injEq] at told
  obtain ⟨serial, decodes, dispatched, kept⟩ := told
  exact ⟨s, made, serial, decodes, dispatched, kept,
    messages_of_reachable (.after .start made) serial⟩

/-- A receiver that makes a delivery while it is given the first of two messages gets the second one
last. -/
example :
    (Session.after (openConnection ++
      [.call (.deliverTo (some "main")),
        .call (.bytesArrived [0x81, 0x01, 0x61, 0x81, 0x01, 0x62]),
        .call (.bytesArrived [0x81, 0x01, 0x63]), .answer Request.takenUp,
        .answer Request.takenUp, .answer Request.takenUp]) (.ofConfig {} 0)).map (fun s =>
      (isSerial s.history, (dispatches s.history).map Dispatch.message, decoded {} s.history)) =
      some (false, [.text "a", .text "c", .text "b"], [.text "a", .text "b", .text "c"]) := by
  decide +kernel

end WebSocket
