import WebSocket.Proofs.Client.Onlooker
import WebSocket.Proofs.Decoder.Refusal
import WebSocket.Proofs.Decoder.ToClose

/-!
# The status of the close that answers what arrived

An open client that is left alone answers the bytes of a connection with at most one close. Its
status is that of the first close that arrived, or else that of the cause for which the bytes were
refused (`callEach_deliveries`).
-/

namespace WebSocket.Client

open WebSocket.Action

variable {answer : (r : Request) → List Request → r.Answer} {s s' : Watched}

/-- The close frames among requests. -/
def closesAmong (asked : List Request) : List Request :=
  asked.filter fun r => r.opcode? == some .close

@[simp] theorem closesAmong_close (status : UInt16) (reason : Bytes) (key : MaskKey)
    (asked : List Request) :
    closesAmong (.sendAsync ((closeParcel status reason).encode key) :: asked) =
      .sendAsync ((closeParcel status reason).encode key) :: closesAmong asked := by
  simp [closesAmong, closeParcel]

theorem closesAmong_cons {r : Request} (other : r.opcode? ≠ some .close) (asked : List Request) :
    closesAmong (r :: asked) = closesAmong asked := by
  simp [closesAmong, other]

/-- Nothing that has to do with closing happened between two moments. -/
structure Unclosed (s s' : Watched) : Prop where
  negotiation : s'.client.negotiation = s.client.negotiation
  decoder : s'.client.decoder = s.client.decoder
  halted : s'.client.halted = s.client.halted
  held : s'.client.gate.isHeld = s.client.gate.isHeld
  closes : closesAmong s'.around = closesAmong s.around

namespace Unclosed

theorem refl (s : Watched) : Unclosed s s := ⟨rfl, rfl, rfl, rfl, rfl⟩

theorem trans {s₁ s₂ s₃ : Watched} (first : Unclosed s₁ s₂) (later : Unclosed s₂ s₃) :
    Unclosed s₁ s₃ where
  negotiation := later.negotiation.trans first.negotiation
  decoder := later.decoder.trans first.decoder
  halted := later.halted.trans first.halted
  held := later.held.trans first.held
  closes := later.closes.trans first.closes

theorem asked {r : Request} (other : r.opcode? ≠ some .close) (s : Watched) :
    Unclosed s { s with around := r :: s.around } :=
  ⟨rfl, rfl, rfl, rfl, closesAmong_cons other s.around⟩

end Unclosed

/-! ### Events other than a close -/

theorem ends_notify (notice : Notice) (s : Watched) :
    ∃ s', Ends (onlooker answer) (notify notice) s () s' ∧ Unclosed s s' := by
  cases chosen : s.client.listener with
  | none =>
    refine ⟨s, ends_bind (ends_get (s := s)) ?_, .refl s⟩
    rw [chosen]
    exact ends_pure ()
  | some listener =>
    refine ⟨_, ends_bind (ends_get (s := s)) ?_,
      .asked (r := .notify listener notice) (by simp [Request.opcode?, Request.frame?]) s⟩
    rw [chosen]
    exact ends_request answer _ s

theorem ends_handOver (message : Message) (s : Watched) :
    ∃ s', Ends (onlooker answer) (handOver message) s () s' ∧ Unclosed s s' := by
  cases chosen : s.client.receiver with
  | none =>
    refine ⟨{ s with client := s.client.enqueue message }, ends_bind (ends_get (s := s)) ?_,
      ⟨rfl, rfl, rfl, rfl, rfl⟩⟩
    rw [chosen]
    exact ends_modify _
  | some receiver =>
    refine ⟨_, ends_bind (ends_get (s := s)) ?_,
      .asked (r := .deliver receiver message) (by simp [Request.opcode?, Request.frame?]) s⟩
    rw [chosen]
    exact ends_request answer _ s

theorem ends_taken (bytes : Bytes) (s : Watched) :
    Ends (onlooker answer) (do
      let taken ← request (.sendAsync bytes)
      Action.modify leaveGate
      return (Except.ok taken : Except Error Bool)) s (.ok (answer (.sendAsync bytes) s.around))
      ⟨s.client.leaveGate, .sendAsync bytes :: s.around⟩ := rfl

theorem ends_transmitAsync {consent : Client → Except Error Unit} (parcel : Parcel)
    (free : s.client.gate.isHeld = false) (granted : consent s.client = .ok ()) :
    ∃ taken key masks,
      Ends (onlooker answer) (transmitAsync consent parcel) s (.ok taken)
        ⟨{ s.client with gate := ⟨masks, false⟩ },
          .sendAsync (parcel.encode key) :: s.around⟩ := by
  obtain ⟨key, masks, entered⟩ := enterGate_granted granted parcel
  refine ⟨answer (.sendAsync (parcel.encode key)) s.around, key, masks, ?_⟩
  refine ends_bind (ends_waitFor (by simp [free]) none) ?_
  refine ends_bind (ends_step _) ?_
  rw [entered]
  rw [← leaveGate_held]
  exact ends_taken _ _

theorem ends_sendAsync (what : Outgoing) (free : s.client.gate.isHeld = false) :
    ∃ s' taken, Ends (onlooker answer) (sendAsync what) s taken s' ∧ Unclosed s s' := by
  cases consent : checkOpen s.client with
  | error e =>
    refine ⟨s, .error e, ends_bind (ends_waitFor (by simp [free]) none) ?_, .refl s⟩
    refine ends_bind (ends_step _) ?_
    simp only [enterGate_refused consent]
    exact ends_pure _
  | ok _ =>
    obtain ⟨taken, key, masks, sent⟩ :=
      @ends_transmitAsync answer s _ what.parcel free consent
    refine ⟨_, _, sent, rfl, rfl, rfl, free.symm, closesAmong_cons ?_ _⟩
    rw [Request.opcode?_sendAsync]
    cases what <;> simp [Outgoing.parcel]

theorem ends_dispatch {event : Event} (quiet : event.isClose = false)
    (free : s.client.gate.isHeld = false) :
    ∃ s', Ends (onlooker answer) (dispatch event) s () s' ∧ Unclosed s s' := by
  cases event with
  | message message => exact ends_handOver message s
  | ping payload =>
    by_cases auto : s.client.config.autoPong = true
    · obtain ⟨s₁, taken, sent, same⟩ := @ends_sendAsync answer s (.pong payload) free
      obtain ⟨s₂, told, same'⟩ := @ends_notify answer (.ping payload) s₁
      refine ⟨s₂, ends_bind (ends_get (s := s)) ?_, same.trans same'⟩
      rw [if_pos auto]
      exact ends_bind (ends_discard sent) told
    · obtain ⟨s₁, told, same⟩ := @ends_notify answer (.ping payload) s
      refine ⟨s₁, ends_bind (ends_get (s := s)) ?_, same⟩
      rw [if_neg auto]
      exact told
  | pong payload => exact ends_notify (.pong payload) s
  | close body => cases quiet

theorem ends_dispatchAll {events : List Event} (quiet : firstClose? events = none)
    (free : s.client.gate.isHeld = false) :
    ∃ s', Ends (onlooker answer) (dispatchAll events) s () s' ∧ Unclosed s s' := by
  induction events generalizing s with
  | nil => exact ⟨s, ends_pure (), .refl s⟩
  | cons event later ih =>
    obtain ⟨notClose, quiet⟩ := firstClose?_eq_none_cons quiet
    obtain ⟨s₁, first, same⟩ := @ends_dispatch answer s event notClose free
    obtain ⟨s₂, rest, same'⟩ := ih (s := s₁) quiet (same.held.trans free)
    exact ⟨s₂, ends_bind first rest, same.trans same'⟩

/-! ### The close -/

/-- A close is the one thing that was sent since, and nothing that arrives counts any more. -/
structure Answered (status : UInt16) (s s' : Watched) : Prop where
  halted : s'.client.halted = s.client.halted
  close : ∃ key, closesAmong s'.around =
    .sendAsync ((closeParcel status []).encode key) :: closesAmong s.around

theorem ends_announceClose (status : UInt16) (free : s.client.gate.isHeld = false) :
    ∃ s', Ends (onlooker answer) (announceClose status) s () s' ∧ Answered status s s' := by
  obtain ⟨taken, key, masks, sent⟩ :=
    @ends_transmitAsync answer s always (closeParcel status []) free rfl
  exact ⟨_, ends_discard sent, rfl, key, closesAmong_close status [] key s.around⟩

theorem closeRemotely_opened {c : Client} (opened : c.phase = .opened)
    (body : Option CloseBody) :
    (c.closeRemotely body).1 = .echo (Negotiation.answerStatus body) := by
  rw [phase] at opened
  simp only [closeRemotely, Negotiation.closeRemotely, opened]

theorem closeLocally_opened {c : Client} (opened : c.phase = .opened) (status : UInt16) :
    (c.closeLocally status).1 = true := by
  rw [phase] at opened
  simp only [closeLocally, Negotiation.closeLocally, opened]

theorem Unclosed.phase (same : Unclosed s s') : s'.client.phase = s.client.phase :=
  congrArg Negotiation.phase same.negotiation

/-- A close that is sent after the negotiation called for it, and the end of the transport. -/
theorem ends_closing {told : Watched} (same : Unclosed s told) (change : Client → Client)
    (reads : ∀ c, (change c).halted = c.halted ∧ (change c).gate = c.gate) (status : UInt16)
    (free : s.client.gate.isHeld = false) :
    ∃ s', Ends (onlooker answer)
        (do announceClose status; discard (request .disconnectAsync))
        { told with client := change told.client } () s' ∧ Answered status s s' := by
  obtain ⟨halted, gate⟩ := reads told.client
  obtain ⟨s₁, sent, answered⟩ := @ends_announceClose answer
    { told with client := change told.client } status
    (by rw [gate]; exact same.held.trans free)
  obtain ⟨key, close⟩ := answered.close
  refine ⟨{ s₁ with around := .disconnectAsync :: s₁.around },
    ends_bind sent (ends_discard (ends_request answer .disconnectAsync s₁)),
    answered.halted.trans (halted.trans same.halted), key, ?_⟩
  rw [closesAmong_cons (by decide), close]
  exact congrArg _ same.closes

theorem ends_remoteClose (body : Option CloseBody) (opened : s.client.phase = .opened)
    (free : s.client.gate.isHeld = false) :
    ∃ s', Ends (onlooker answer) (remoteClose body) s () s' ∧
      Answered (Negotiation.answerStatus body) s s' := by
  obtain ⟨s₁, told, same⟩ := @ends_notify answer (.close body) s
  obtain ⟨s₂, closing, answered⟩ := @ends_closing answer s s₁ same
    (fun c => (c.closeRemotely body).2) (fun c => ⟨rfl, rfl⟩) (Negotiation.answerStatus body) free
  refine ⟨s₂, ends_bind told (ends_bind (ends_step _) ?_), answered⟩
  rw [closeRemotely_opened (same.phase.trans opened)]
  exact closing

theorem ends_protocolFault (e : Error) (opened : s.client.phase = .opened)
    (free : s.client.gate.isHeld = false) :
    ∃ s', Ends (onlooker answer) (protocolFault e) s () s' ∧ Answered e.closeStatus s s' := by
  obtain ⟨s₁, told, same⟩ := @ends_notify answer (.error (.fault .webSocket e.message)) s
  obtain ⟨s₂, closing, answered⟩ := @ends_closing answer s s₁ same
    (fun c => (c.closeLocally e.closeStatus).2) (fun c => ⟨rfl, rfl⟩) e.closeStatus free
  refine ⟨s₂, ends_bind told (ends_bind (ends_step _) ?_), answered⟩
  rw [closeLocally_opened (same.phase.trans opened)]
  exact closing

theorem ends_dispatchAll_close {before : List Event} (quiet : firstClose? before = none)
    (body : Option CloseBody) (opened : s.client.phase = .opened)
    (free : s.client.gate.isHeld = false) :
    ∃ s', Ends (onlooker answer) (dispatchAll (before ++ [.close body])) s () s' ∧
      Answered (Negotiation.answerStatus body) s s' := by
  induction before generalizing s with
  | nil =>
    obtain ⟨s₁, closed, answered⟩ := @ends_remoteClose answer s body opened free
    exact ⟨s₁, ends_bind closed (ends_pure ()), answered⟩
  | cons event later ih =>
    obtain ⟨notClose, quiet⟩ := firstClose?_eq_none_cons quiet
    obtain ⟨s₁, first, same⟩ := @ends_dispatch answer s event notClose free
    obtain ⟨s₂, rest, answered⟩ :=
      ih (s := s₁) quiet (same.phase.trans opened) (same.held.trans free)
    obtain ⟨key, close⟩ := answered.close
    exact ⟨s₂, ends_bind first rest, answered.halted.trans same.halted, key,
      close.trans (congrArg _ same.closes)⟩

/-! ### Deliveries -/

/-- An open client that reads with a decoder, and whose gate is free. -/
structure Listens (c : Client) (d : Decoder) : Prop where
  opened : c.phase = .opened
  decoder : c.decoder = d
  reads : c.halted = false
  free : c.gate.isHeld = false

/-- The status that answers what was read: that of the first close, or else that of the failure. -/
def answerTo (drained : Decoder.Drained) : Option UInt16 :=
  match firstClose? drained.events with
  | some body => some (Negotiation.answerStatus body)
  | none => drained.fault.map Error.closeStatus

theorem ends_bytesArrived_sound {data : Bytes} {events : List Event}
    (read : (s.client.absorb data).1 = (events, none))
    (acted : Ends (onlooker answer) (dispatchAll events)
      { s with client := (s.client.absorb data).2 } () s') :
    Ends (onlooker answer) (bytesArrived data) s () s' := by
  refine ends_bind (ends_step _) ?_
  rw [read]
  exact ends_bind acted (ends_pure ())

theorem ends_bytesArrived_fault {data : Bytes} {events : List Event} {e : Error} {s₁ : Watched}
    (read : (s.client.absorb data).1 = (events, some e))
    (acted : Ends (onlooker answer) (dispatchAll events)
      { s with client := (s.client.absorb data).2 } () s₁)
    (failed : Ends (onlooker answer) (protocolFault e) s₁ () s') :
    Ends (onlooker answer) (bytesArrived data) s () s' := by
  refine ends_bind (ends_step _) ?_
  rw [read]
  exact ends_bind acted failed

theorem ends_bytesArrived_halted {σ : Type} {answer : Surroundings σ} {s : Setting σ}
    (halted : s.client.halted = true) (data : Bytes) :
    Ends answer (bytesArrived data) s () s := by
  refine ends_bind (ends_step _) ?_
  rw [absorb_idle (.inr halted)]
  exact ends_bind (ends_pure ()) (ends_pure ())

/-- What one delivery leads to: an answer after which nothing counts, or more to listen to. -/
def Delivered (drained : Decoder.Drained) (s s' : Watched) : Prop :=
  match answerTo drained with
  | some status => s'.client.halted = true ∧ ∃ key, closesAmong s'.around =
      .sendAsync ((closeParcel status []).encode key) :: closesAmong s.around
  | none => Listens s'.client drained.decoder ∧ closesAmong s'.around = closesAmong s.around

theorem ends_bytesArrived {d : Decoder} (listens : Listens s.client d) (data : Bytes) :
    ∃ s', Ends (onlooker answer) (bytesArrived data) s () s' ∧
      Delivered (d.feed data).drain s s' := by
  have absorbed := absorb_active (by simp [listens.opened]) listens.reads data
  rw [listens.decoder] at absorbed
  have given := congrArg Prod.fst absorbed
  let s₁ : Watched := { s with client := (s.client.absorb data).2 }
  have opened : s₁.client.phase = .opened := by
    simp only [s₁, absorbed]
    exact listens.opened
  have free : s₁.client.gate.isHeld = false := by
    simp only [s₁, absorbed]
    exact listens.free
  cases close : firstClose? (d.feed data).drain.events with
  | some body =>
    -- The close is the last event that was read, and no failure was reached.
    obtain ⟨before, events, quiet, sound⟩ := Decoder.drainToClose_of_firstClose close
    have halted : s₁.client.halted = true := by
      simp [s₁, absorbed, events, Event.isClose]
    rw [events, sound] at given
    obtain ⟨s₂, closed, answered⟩ :=
      @ends_dispatchAll_close answer s₁ before quiet body opened free
    refine ⟨s₂, ends_bytesArrived_sound given closed, ?_⟩
    simp only [Delivered, answerTo, close]
    exact ⟨answered.halted.trans halted, answered.close⟩
  | none =>
    have whole := Decoder.drainToClose_eq_drain close
    rw [whole] at absorbed given
    obtain ⟨s₂, acted, same⟩ := @ends_dispatchAll answer s₁ _ close free
    cases fault : (d.feed data).drain.fault with
    | none =>
      rw [fault] at given
      refine ⟨s₂, ends_bytesArrived_sound given acted, ?_⟩
      simp only [Delivered, answerTo, close, fault, Option.map_none]
      refine ⟨⟨same.phase.trans opened, ?_, ?_, same.held.trans free⟩, same.closes⟩
      · rw [same.decoder]
        simp only [s₁, absorbed]
      · rw [same.halted]
        simp [s₁, absorbed, fault, any_isClose, close]
    | some e =>
      rw [fault] at given
      obtain ⟨s₃, failed, answered⟩ :=
        @ends_protocolFault answer s₂ e (same.phase.trans opened) (same.held.trans free)
      obtain ⟨key, closed⟩ := answered.close
      refine ⟨s₃, ends_bytesArrived_fault given acted failed, ?_⟩
      simp only [Delivered, answerTo, close, fault, Option.map_some]
      refine ⟨?_, key, closed.trans (congrArg _ same.closes)⟩
      rw [answered.halted, same.halted]
      simp [s₁, absorbed, fault]

theorem callEach_halted {σ : Type} {answer : Surroundings σ} {s : Setting σ}
    (halted : s.client.halted = true) (deliveries : List Bytes) :
    callEach answer (deliveries.map .bytesArrived) s = some s := by
  induction deliveries with
  | nil => rfl
  | cons delivery later ih =>
    have ends : Ends answer (bytesArrived delivery) s () s :=
      ends_bytesArrived_halted halted delivery
    rw [List.map_cons, callEach_cons (ends_bind ends (ends_pure Reply.none)), ih]

theorem answerTo_after (events : List Event) (later : Decoder.Drained) :
    answerTo (later.after events) =
      ((firstClose? events).map Negotiation.answerStatus).or (answerTo later) := by
  simp only [answerTo, Decoder.Drained.after, firstClose?_append]
  cases firstClose? events with
  | some body => rfl
  | none => rfl

theorem answerTo_of_fault {drained : Decoder.Drained} {cause : Error}
    (failed : drained.fault = some cause) :
    answerTo drained = some
      ((firstClose? drained.events).elim cause.closeStatus Negotiation.answerStatus) := by
  simp only [answerTo, failed]
  cases firstClose? drained.events with
  | some body => rfl
  | none => rfl

theorem answerTo_drainEach_cons (d : Decoder) (delivery : Bytes) (later : List Bytes) :
    answerTo (d.drainEach (delivery :: later)) =
      (answerTo (d.feed delivery).drain).or
        (answerTo ((d.feed delivery).drain.decoder.drainEach later)) := by
  cases fault : (d.feed delivery).drain.fault with
  | some e =>
    rw [Decoder.drainEach_of_fault fault, answerTo_of_fault fault]
    rfl
  | none =>
    rw [Decoder.drainEach_of_sound fault, answerTo_after]
    simp only [answerTo, fault]
    cases firstClose? (d.feed delivery).drain.events with
    | some body => rfl
    | none => rfl

theorem callEach_deliveries {d : Decoder} (listens : Listens s.client d)
    (deliveries : List Bytes) :
    ∃ s' key, callEach (onlooker answer) (deliveries.map .bytesArrived) s = some s' ∧
      closesAmong s'.around =
        ((answerTo (d.drainEach deliveries)).toList.map fun status =>
          .sendAsync ((closeParcel status []).encode key)) ++ closesAmong s.around := by
  induction deliveries generalizing s d with
  | nil => exact ⟨s, ⟨0, 0, 0, 0⟩, rfl, rfl⟩
  | cons delivery later ih =>
    obtain ⟨s₁, ends, delivered⟩ := @ends_bytesArrived answer s d listens delivery
    rw [List.map_cons, callEach_cons (ends_bind ends (ends_pure Reply.none)),
      answerTo_drainEach_cons]
    unfold Delivered at delivered
    cases answered : answerTo (d.feed delivery).drain with
    | some status =>
      simp only [answered] at delivered
      obtain ⟨halted, key, close⟩ := delivered
      exact ⟨s₁, key, callEach_halted halted later, close⟩
    | none =>
      simp only [answered] at delivered
      obtain ⟨s₂, key, made, closes⟩ := ih delivered.1
      refine ⟨s₂, key, made, ?_⟩
      rw [closes, delivered.2]
      rfl

/-- However bytes that cannot be read are cut, an open client answers them with one close. Its
status is that of the first close among the events, or else that of the cause of the failure. The
cause has the status it has for the bytes in one piece, except where these are refused for a length
that a delivery cut in a frame with a reserved opcode: then the status is 1002. -/
theorem close_of_deliveries (config : Config) (deliveries : List Bytes) {e : Error}
    (failed : ((Decoder.ofConfig config).feed deliveries.flatten).drain.fault = some e) :
    ∃ cause, ((Decoder.ofConfig config).drainEach deliveries).fault = some cause ∧
      (Decoder.Oversized e ∧ Decoder.CutInReserved config deliveries →
        cause.closeStatus = 1002) ∧
      (¬(Decoder.Oversized e ∧ Decoder.CutInReserved config deliveries) →
        cause.closeStatus = e.closeStatus) ∧
      ∀ (c : Client) (answer : (r : Request) → List Request → r.Answer),
        Listens c (.ofConfig config) →
          ∃ s' key, callEach (onlooker answer) (deliveries.map .bytesArrived) ⟨c, []⟩ = some s' ∧
            closesAmong s'.around =
              let whole := ((Decoder.ofConfig config).feed deliveries.flatten).drain
              let status := (firstClose? whole.events).elim cause.closeStatus
                Negotiation.answerStatus
              [.sendAsync ((closeParcel status []).encode key)] := by
  obtain ⟨cause, parts, cut, uncut⟩ := Decoder.closeStatus_of_parts config deliveries failed
  refine ⟨cause, parts, cut, uncut, fun c answer listens => ?_⟩
  obtain ⟨s', key, made, closes⟩ := @callEach_deliveries answer ⟨c, []⟩ _ listens deliveries
  obtain ⟨events, -, -⟩ := Decoder.drainEach_ofConfig config deliveries
  rw [answerTo_of_fault parts, events] at closes
  exact ⟨s', key, made, closes⟩

/-- A frame with a reserved opcode that announces a byte more than the default limit. -/
def oversizedReserved : Bytes := [0x83, 0x7F, 0, 0, 0, 0, 1, 0, 0, 1]

/-- In one piece the frame is refused for its length, cut after two bytes for its opcode. -/
theorem closeStatus_depends_on_cut :
    ∃ deliveries : List Bytes, deliveries.flatten = oversizedReserved ∧
      ((Decoder.ofConfig {}).drainEach [oversizedReserved]).fault.map Error.closeStatus =
        some 1009 ∧
      ((Decoder.ofConfig {}).drainEach deliveries).fault.map Error.closeStatus = some 1002 := by
  refine ⟨[oversizedReserved.take 2, oversizedReserved.drop 2], by decide, ?_, ?_⟩
  · decide +kernel
  · decide +kernel

theorem close_of_deliveries_cut :
    let deliveries := [oversizedReserved.take 2, oversizedReserved.drop 2]
    let c := ((ofConfig {} 0).beginConnect (.ofNonce []) false).2.completeHandshake.2
    ∃ cause s' key, ((Decoder.ofConfig {}).drainEach deliveries).fault = some cause ∧
      cause.closeStatus = 1002 ∧
      callEach (onlooker fun r _ => r.takenUp) (deliveries.map .bytesArrived) ⟨c, []⟩ = some s' ∧
      closesAmong s'.around = [.sendAsync ((closeParcel 1002 []).encode key)] := by
  intro deliveries c
  have failed : ((Decoder.ofConfig {}).feed deliveries.flatten).drain =
      ⟨[], some (.frameTooLarge 16777217 16777216),
        ⟨false, { limits := {} }, oversizedReserved⟩⟩ := by
    decide +kernel
  have cut : Decoder.CutInReserved {} deliveries := by
    have left : ((Decoder.ofConfig {}).feed (deliveries.take 1).flatten).drain.decoder.buffer =
        [0x83, 0x7F] := by decide +kernel
    refine ⟨1, ?_⟩
    rw [left]
    exact ⟨⟨0x83, 0x7F, [], rfl, by decide⟩, rfl⟩
  obtain ⟨cause, parts, status, -, answered⟩ :=
    close_of_deliveries {} deliveries (congrArg Decoder.Drained.fault failed)
  have refused : cause.closeStatus = 1002 := status ⟨⟨_, _, rfl⟩, cut⟩
  obtain ⟨s', key, made, closes⟩ :=
    answered c (fun r _ => r.takenUp) ⟨by decide, by decide, by decide, by decide⟩
  simp only [failed, firstClose?, Option.elim_none, refused] at closes
  exact ⟨cause, s', key, parts, refused, made, closes⟩

end WebSocket.Client
