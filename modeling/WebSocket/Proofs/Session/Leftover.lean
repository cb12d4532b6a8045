import WebSocket.Proofs.Session.Harmless
import WebSocket.Proofs.Session.Reading

/-!
# Deliveries and the attempts they outlive

A delivery tells the listener what it read, and the listener may end the connection and begin
another attempt before the delivery goes on. What is left of it then acts on the wrong attempt
(`stale_close_acts`), unless it is harmless. If no attempt begins while a delivery has more than
harmless steps left (`Spared`), every delivery stays with its attempt (`delivery_stays_in_attempt`).
-/

namespace WebSocket

open WebSocket.Action

/-- If an attempt begins in a turn, what is left of all deliveries is harmless. -/
def Spared (config : Config) (s : Session) (turn : Turn) : Prop :=
  attempts (turn.play s.client).history ≠ attempts s.history →
    ∀ caller ∈ turn.callers, caller.call.isDelivery → caller.halt.Harmless config

/-! ### Deliveries begin no attempt -/

structure Steady (c c' : Client) : Prop where
  quiet : Phase.signal? c.phase c'.phase ≠ some .begun
  settings : c'.config = c.config

theorem Idle.steady {c c' : Client} (idle : Idle c c') : Steady c c' := by
  refine ⟨?_, idle.settings⟩
  have phase : c'.phase = c.phase := congrArg Negotiation.phase idle.negotiation
  rw [phase, Phase.signal?_self]
  exact (Option.some_ne_none _).symm

theorem Handling.steady {c c' : Client} (handling : Handling c c') : Steady c c' := by
  rcases handling with ⟨stroke, isAmong⟩ | stroke
  · cases stroke with
    | look => exact Idle.steady ⟨rfl, rfl⟩
    | enqueue message => exact Idle.steady ⟨rfl, rfl⟩
    | closeLocally status =>
      obtain ⟨config, ⟨phase, sent, received⟩, rest⟩ := c
      cases phase <;> exact ⟨nofun, rfl⟩
    | closeRemotely body =>
      obtain ⟨config, ⟨phase, sent, received⟩, rest⟩ := c
      cases phase <;> exact ⟨nofun, rfl⟩
    | _ => cases isAmong
  · rw [stroke.eq]
    exact Idle.steady ⟨rfl, rfl⟩

theorem steady_delivery (config : Config) (data : Bytes) :
    (Call.bytesArrived data).action.Every (fun c => c.config = config) Steady fun _ => True := by
  refine every_bind (Client.every_bytesArrived ?_ fun read => ?_) fun _ => every_pure _
  · intro c _
    rw [Client.absorb_eq]
    exact Idle.steady ⟨rfl, rfl⟩
  · exact (Client.handles_actOn read).mono (fun _ _ => trivial) (fun _ _ => Handling.steady)
      fun _ _ => trivial

theorem attempts_of_steady {new h : List Moment}
    (steady : ∀ moment ∈ new, moment.Of Steady fun _ => True) :
    attempts (new ++ h) = attempts h := by
  induction new with
  | nil => rfl
  | cons moment later ih =>
    have quiet : moment.signal? ≠ some .begun := by
      have sort := steady moment List.mem_cons_self
      cases moment with
      | changed before after => exact sort.quiet
      | asked request => simp [Moment.signal?]
      | called call => cases sort
      | answered request answer => cases sort
      | returned reply => exact (Option.some_ne_none _).symm
    have rest := ih fun m isIn => steady m (List.mem_cons_of_mem _ isIn)
    unfold attempts at rest ⊢
    rw [List.cons_append, signals, List.count_append, rest]
    cases signal : moment.signal? with
    | none => rfl
    | some signal' =>
      rw [signal] at quiet
      cases signal' with
      | begun => exact absurd rfl quiet
      | opened => rfl
      | frame opcode => rfl

/-! ### Sessions -/

/-- What a call has left, if it is a delivery, begins no attempt, and unless the attempt it came in
is under way it is harmless. `now` is the number of attempts begun. -/
def Caller.Settled (config : Config) (now : Nat) (caller : Caller) : Prop :=
  caller.call.isDelivery →
    caller.halt.Every (fun c => c.config = config) Steady (fun _ => True) ∧
      (attempts caller.since = now ∨ caller.halt.Harmless config)

structure Turn.Settled (config : Config) (now : Nat) (turn : Turn) : Prop where
  history : attempts turn.history = now
  callers : ∀ caller ∈ turn.callers, caller.Settled config now
  steady : turn.call.isDelivery →
    turn.course.Every (fun c => c.config = config) Steady fun _ => True
  harmless : turn.call.isDelivery → attempts turn.since = now ∨ turn.course.Harmless config

def Session.Settled (config : Config) (s : Session) : Prop :=
  ∀ caller ∈ s.callers, caller.Settled config (attempts s.history)

theorem Session.Settled.turn {config : Config} {s : Session} (settled : s.Settled config)
    {choice : Choice} {turn : Turn} (possible : s.turn? choice = some turn) :
    turn.Settled config (attempts s.history) := by
  obtain ⟨c, callers, h⟩ := s
  cases choice with
  | call call =>
    cases possible
    refine ⟨?_, settled, fun delivery => ?_, fun _ => .inl rfl⟩
    · simp only [attempts, signals_called]
    · cases call with
      | bytesArrived data => exact steady_delivery config data
      | _ => cases delivery
  | answer how =>
    match callers, possible with
    | ⟨call, since, .asking request next⟩ :: callers, possible =>
      cases possible
      have own := settled _ List.mem_cons_self
      refine ⟨?_, fun caller isIn => settled caller (List.mem_cons_of_mem _ isIn), ?_, ?_⟩
      · simp only [attempts, signals_answered]
      · exact fun delivery => (own delivery).1 (how request)
      · exact fun delivery => (own delivery).2.imp_right fun left => left (how request)
  | goOn =>
    match callers, possible with
    | ⟨call, since, .waiting limit ready next⟩ :: callers, possible =>
      simp only [Session.turn?] at possible
      split at possible
      · cases possible
        have own := settled _ List.mem_cons_self
        refine ⟨rfl, fun caller isIn => settled caller (List.mem_cons_of_mem _ isIn), ?_, ?_⟩
        · exact fun delivery => (own delivery).1
        · exact fun delivery => (own delivery).2
      · cases possible

theorem steady_possible {config : Config} (c c' : Client) (settings : c.config = config)
    (steady : Steady c c') : c'.config = config := steady.settings.trans settings

theorem Turn.Settled.attempts_play {config : Config} {now : Nat} {turn : Turn}
    (settled : turn.Settled config now) (delivery : turn.call.isDelivery) {c : Client}
    (settings : c.config = config) : attempts (turn.play c).history = now := by
  obtain ⟨-, ⟨new, history, steady⟩, -⟩ :=
    turn.play_every steady_possible (settled.steady delivery) settings
  rw [history, attempts_of_steady steady, settled.history]

theorem Turn.Settled.idle {config : Config} {now : Nat} {turn : Turn}
    (settled : turn.Settled config now) (delivery : turn.call.isDelivery)
    (outlived : attempts turn.since ≠ now) {c : Client} (settings : c.config = config) :
    Session.Outcome (fun c => c.config = config) Idle (fun r => r.isOfTransport = false) turn
      (turn.play c) :=
  turn.play_every (fun _ _ same idle => idle.settings.trans same)
    ((settled.harmless delivery).resolve_left outlived) settings

theorem Turn.Settled.play {config : Config} {s : Session} {turn : Turn}
    (settled : turn.Settled config (attempts s.history)) (settings : s.client.config = config)
    (spared : Spared config s turn) : (turn.play s.client).Settled config := by
  -- Those under way before stay settled: if an attempt began then what they have left is harmless.
  have outer : ∀ caller ∈ turn.callers,
      caller.Settled config (attempts (turn.play s.client).history) := by
    intro caller isIn delivery
    obtain ⟨steady, harmless⟩ := settled.callers caller isIn delivery
    refine ⟨steady, ?_⟩
    by_cases same : attempts (turn.play s.client).history = attempts s.history
    · rw [same]
      exact harmless
    · exact .inr (spared same caller isIn delivery)
  intro caller isIn
  rcases turn.play_callers s.client with left | ⟨halt, left⟩
  · rw [left] at isIn
    exact outer caller isIn
  rw [left] at isIn
  rcases List.mem_cons.mp isIn with rfl | isOuter
  · intro delivery
    by_cases underway : attempts turn.since = attempts s.history
    · have outcome := turn.play_every steady_possible (settled.steady delivery) settings
      rw [settled.attempts_play delivery settings]
      exact ⟨outcome.left halt left, .inl underway⟩
    · have harmless := (settled.idle delivery underway settings).left halt left
      exact ⟨harmless.mono (fun _ _ => Idle.steady) fun _ _ => trivial, .inr harmless⟩
  · exact outer caller isOuter

theorem settled_of_reachable {config : Config} {seed : UInt32} {s : Session}
    (reachable : Session.ReachableBy (Spared config) config seed s) : s.Settled config := by
  induction reachable with
  | start => exact fun caller isIn => absurd isIn List.not_mem_nil
  | turn choice before possible spared settled =>
    exact (settled.turn possible).play (reads_of_reachable before).settings spared

/-- If no attempt begins while a delivery has more left than harmless steps, deliveries stay with
their attempts. What is read is determined by the bytes that were delivered in the attempt under
way, and whatever a delivery does to the connection it does in the attempt in which it came. -/
theorem delivery_stays_in_attempt {config : Config} {seed : UInt32} {s : Session}
    (reachable : Session.ReachableBy (Spared config) config seed s) :
    (∀ data, (s.client.absorb data).1 = ([], none) ∨
      let read := ((readSoFar config s.history).decoder.feed data).drainToClose
      (s.client.absorb data).1 = (read.events, read.fault)) ∧
    ∀ choice turn, s.turn? choice = some turn → turn.call.isDelivery →
      ∃ new, (turn.play s.client).history = new ++ turn.history ∧
        ∀ moment ∈ new, moment.Acts → attempts turn.since = attempts s.history := by
  have reads := reads_of_reachable reachable
  refine ⟨fun data => ?_, fun choice turn possible delivery => ?_⟩
  · by_cases idle : s.client.phase = .closed ∨ s.client.halted = true
    · left
      rw [Client.absorb_idle idle]
    · right
      obtain ⟨active, listening⟩ := not_or.mp idle
      rw [Bool.not_eq_true] at listening
      rw [Client.absorb_active active listening, (reads.decoder active listening).2]
  · have settled := (settled_of_reachable reachable).turn possible
    by_cases underway : attempts turn.since = attempts s.history
    · obtain ⟨-, ⟨new, history, -⟩, -⟩ :=
        turn.play_every steady_possible (settled.steady delivery) reads.settings
      exact ⟨new, history, fun _ _ _ => underway⟩
    · obtain ⟨-, ⟨new, history, idle⟩, -⟩ := settled.idle delivery underway reads.settings
      refine ⟨new, history, fun moment isNew acts => ?_⟩
      have sort := idle moment isNew
      cases moment with
      | changed before after => exact absurd sort.negotiation acts
      | asked request =>
        rw [Moment.Acts, sort] at acts
        cases acts
      | called call => cases acts
      | answered request answer => cases acts
      | returned reply => cases acts

/-! ### Two reconnections -/

def Action.isDone {α : Type} : Action α → Bool
  | .done _ => true
  | .access .. | .ask .. | .wait .. => false

/-- The call asked for the end of the transport and has nothing left. -/
def Halt.isOver : Halt → Bool
  | .asking .disconnectAsync next => (next true).isDone && (next false).isDone
  | _ => false

theorem Halt.harmless_of_isOver {config : Config} {halt : Halt} (isOver : halt.isOver) :
    halt.Harmless config := by
  unfold Halt.isOver at isOver
  split at isOver
  · rename_i next
    obtain ⟨yes, no⟩ := Bool.and_eq_true_iff.mp isOver
    have done : ∀ x : Action Reply, x.isDone → x.Harmless config := by
      intro x isDone
      cases x with
      | done value => trivial
      | _ => cases isDone
    intro answer
    cases answer with
    | true => exact done _ yes
    | false => exact done _ no
  · cases isOver

/-- Whether a turn begins no attempt, or one while deliveries under way are over. -/
def Session.spares (s : Session) (turn : Turn) : Bool :=
  attempts (turn.play s.client).history == attempts s.history ||
    turn.callers.all fun caller => !caller.call.isDelivery || caller.halt.isOver

theorem spared_of_spares {config : Config} {s : Session} {turn : Turn} (spares : s.spares turn) :
    Spared config s turn := by
  intro begun caller isIn delivery
  rcases Bool.or_eq_true_iff.mp spares with same | ended
  · exact absurd (by simpa using same) begun
  · have left := List.all_eq_true.mp ended caller isIn
    rw [delivery] at left
    exact Halt.harmless_of_isOver (by simpa using left)

/-- Makes choices one after another, as long as each turn spares the deliveries. -/
def Session.afterSparing : List Choice → Session → Option Session
  | [], s => some s
  | choice :: later, s => (s.turn? choice).bind fun turn =>
    if s.spares turn then afterSparing later (turn.play s.client) else none

theorem Session.ReachableBy.afterSparing {config : Config} {seed : UInt32} {s s' : Session}
    (reachable : ReachableBy (Spared config) config seed s) {choices : List Choice}
    (made : Session.afterSparing choices s = some s') :
    ReachableBy (Spared config) config seed s' := by
  induction choices generalizing s with
  | nil =>
    cases made
    exact reachable
  | cons choice later ih =>
    obtain ⟨turn, possible, made⟩ := Option.bind_eq_some_iff.mp made
    split at made
    · exact ih (.turn choice reachable possible (spared_of_spares ‹_›)) made
    · cases made

def opening : List Choice :=
  [.call (.connectAsync (.ofNonce [])), .answer Request.takenUp, .call .handshakeCompleted]

/-- The server closes, and a new attempt begins as the transport goes down. -/
def reconnecting : List Choice :=
  opening ++ [.call (.bytesArrived [0x88, 0x02, 0x03, 0xE9]), .answer Request.takenUp,
    .call .transportDown, .call (.connectAsync (.ofNonce []))]

theorem delivery_stays_in_attempt_reconnecting :
    ∃ s turn new, Session.afterSparing (reconnecting ++ [.answer Request.takenUp])
        (.ofConfig {} 0) = some s ∧
      s.turn? (.answer Request.takenUp) = some turn ∧
      turn.call = .bytesArrived [0x88, 0x02, 0x03, 0xE9] ∧
      attempts turn.since = 1 ∧ attempts s.history = 2 ∧
      (turn.play s.client).history = new ++ turn.history ∧ ∀ moment ∈ new, ¬moment.Acts := by
  have played : ((Session.afterSparing (reconnecting ++ [.answer Request.takenUp])
      (.ofConfig {} 0)).bind fun s =>
      (s.turn? (.answer Request.takenUp)).map fun turn =>
        (turn.call, attempts turn.since, attempts s.history)) =
      some (.bytesArrived [0x88, 0x02, 0x03, 0xE9], 1, 2) := by
    decide +kernel
  obtain ⟨s, made, played⟩ := Option.bind_eq_some_iff.mp played
  obtain ⟨turn, possible, told⟩ := Option.map_eq_some_iff.mp played
  simp only [Prod.mk.injEq] at told
  obtain ⟨call, since, now⟩ := told
  obtain ⟨-, stays⟩ := delivery_stays_in_attempt (.afterSparing .start made)
  obtain ⟨new, history, acts⟩ := stays _ turn possible (by rw [call]; rfl)
  refine ⟨s, turn, new, made, possible, call, since, now, history, fun moment isNew act => ?_⟩
  have same := acts moment isNew act
  omega

/-- The server sends a ping and a close at once, and the listener connects anew on the ping. -/
def reconnectingOnPing : List Choice :=
  .call (.listen (.named "main")) :: opening ++ [.answer Request.takenUp,
    .call (.bytesArrived [0x89, 0x00, 0x88, 0x02, 0x03, 0xE9]), .answer Request.takenUp,
    .call .disconnect, .answer Request.takenUp, .call .transportDown, .answer Request.takenUp,
    .answer Request.takenUp, .call (.connectAsync (.ofNonce [])), .answer Request.takenUp,
    .answer Request.takenUp]

/-- The close of the first connection ends the second attempt. -/
theorem stale_close_acts :
    ∃ s turn, Session.Reachable {} 0 s ∧ s.turn? (.answer Request.takenUp) = some turn ∧
      turn.call = .bytesArrived [0x89, 0x00, 0x88, 0x02, 0x03, 0xE9] ∧
      attempts turn.since = 1 ∧ attempts s.history = 2 ∧
      s.client.negotiation = { phase := .connecting } ∧
      (turn.play s.client).client.negotiation =
        { phase := .closingLocal, received := some ⟨.goingAway, ""⟩ } := by
  have played : ((Session.after reconnectingOnPing (.ofConfig {} 0)).bind fun s =>
      (s.turn? (.answer Request.takenUp)).map fun turn =>
        (turn.call, attempts turn.since, attempts s.history, s.client.negotiation,
          (turn.play s.client).client.negotiation)) =
      some (.bytesArrived [0x89, 0x00, 0x88, 0x02, 0x03, 0xE9], 1, 2, { phase := .connecting },
        { phase := .closingLocal, received := some ⟨.goingAway, ""⟩ }) := by
    decide +kernel
  obtain ⟨s, made, played⟩ := Option.bind_eq_some_iff.mp played
  obtain ⟨turn, possible, told⟩ := Option.map_eq_some_iff.mp played
  simp only [Prod.mk.injEq] at told
  exact ⟨s, turn, .after .start made, possible, told⟩

end WebSocket
