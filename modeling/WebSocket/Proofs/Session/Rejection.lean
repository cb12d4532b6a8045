import WebSocket.Proofs.Session.Opening
import WebSocket.Proofs.Session.Reading

/-!
# Attempts that were rejected

A response that is not accepted marks the attempt, and a marked attempt does not open. The mark does
not stop reading: what the server goes on to send is acted on (`rejected_server_is_heard`) until the
transport is down or the server has closed or broken the rules. From then on a delivery does nothing
(`delivery_ignored_of_rejected`). An attempt in which the transport went down stays closed
(`closed_of_down`), whoever calls the client meanwhile.
-/

namespace WebSocket

open WebSocket.Action

/-- The calls that were made since the attempt under way began, latest first. -/
def callsOfAttempt : List Moment → List Call
  | [] => []
  | .called call :: h => call :: callsOfAttempt h
  | .changed before after :: h =>
    if Phase.signal? before.phase after.phase = some .begun then [] else callsOfAttempt h
  | .asked _ :: h | .answered .. :: h | .returned _ :: h => callsOfAttempt h

/-- Nothing more is to come in the attempt under way: the transport reported that it is down, or
what it delivered held a close or broke the rules. -/
inductive CutOff (config : Config) (h : List Moment) : Prop
  | down (reported : .transportDown ∈ callsOfAttempt h)
  | faulted (fault : (readSoFar config h).fault.isSome)
  | closed (close : (readSoFar config h).events.any Event.isClose)

/-! ### Phases -/

theorem Advance.follows {c c' : Client} (advance : Advance c c') : c.phase.Follows c'.phase := by
  cases advance with
  | stroke stroke => exact stroke.phase
  | absorb data =>
    rw [Client.absorb_phase]
    exact .stays _

theorem GateStroke.follows {c c' : Client} (stroke : GateStroke c c') :
    c.phase.Follows c'.phase := by
  rw [stroke.eq]
  exact .stays _

theorem Call.every_follows (call : Call) :
    call.action.Every (fun _ => True) (fun c c' => c.phase.Follows c'.phase) fun _ => True :=
  call.composed.every (fun _ _ => Advance.follows) (fun _ => .stays _)
    (fun _ _ _ _ => GateStroke.follows) (fun _ _ => trivial) (fun _ _ => trivial)
    fun _ _ _ _ _ => trivial

theorem Phase.Follows.of_closed {p : Phase} (follows : Phase.Follows .closed p) :
    p = .closed ∨ Phase.signal? .closed p = some .begun := by
  cases follows with
  | stays => exact .inl rfl
  | begins => exact .inr rfl
  | ends => exact .inl rfl

/-! ### An attempt in which the transport went down -/

def ClosedOnceDown (c : Client) (h : List Moment) : Prop :=
  .transportDown ∈ callsOfAttempt h → c.phase = .closed

def stayingDown : Duty where
  holds := ClosedOnceDown
  keeps _ _ _ _ := True
  refl _ _ := trivial
  trans _ _ := trivial

theorem ClosedOnceDown.changed {c c' : Client} {h : List Moment} (once : ClosedOnceDown c h)
    (follows : c.phase.Follows c'.phase) : ClosedOnceDown c' (.changed c c' :: h) := by
  intro down
  rw [callsOfAttempt] at down
  split at down
  · cases down
  · rename_i goesOn
    rw [once down] at goesOn follows
    exact follows.of_closed.resolve_right goesOn

theorem ClosedOnceDown.cons {c : Client} {h : List Moment} (once : ClosedOnceDown c h)
    {moment : Moment} (same : moment.isChange = false) (other : moment ≠ .called .transportDown) :
    ClosedOnceDown c (moment :: h) := by
  intro down
  cases moment with
  | called call =>
    have notDown : Call.transportDown ≠ call := fun isDown => other (congrArg _ isDown.symm)
    exact once (List.mem_of_ne_of_mem notDown down)
  | changed before after => cases same
  | asked request => exact once down
  | answered request answer => exact once down
  | returned reply => exact once down

theorem tolerates_stayingDown :
    Tolerates stayingDown (fun c c' => c.phase.Follows c'.phase) fun _ => True where
  changed once follows := ⟨once.changed follows, trivial⟩
  asked once _ := ⟨once.cons rfl nofun, trivial⟩
  answered _ once _ := ⟨once.cons rfl nofun, trivial⟩

theorem does_transportDown :
    Call.transportDown.action.Does stayingDown fun _ _ => True := by
  have begins : Client.transportDown.Begins Client.disconnected fun _ => True :=
    Client.begins_transportDown
  obtain ⟨k, same, later⟩ := begins.map fun _ => Reply.none
  have rest : ∀ v, (k v).Does stayingDown ClosedOnceDown := fun v =>
    does_of_every tolerates_stayingDown ((later v).routinely.regular.every (fun _ _ => Stroke.phase)
      (fun _ => .stays _) (fun _ _ _ _ => GateStroke.follows) (fun _ _ => trivial)
      (fun _ _ => trivial) fun _ _ _ _ _ => trivial)
  intro c h _
  show ((fun _ => Reply.none) <$> Client.transportDown).Assures stayingDown _ c h
  rw [same]
  -- The client closes before anyone else gets control.
  refine assures_bind.mpr (assures_step.mpr ?_)
  exact (rest _).after (fun _ => Client.closed_disconnected c) trivial

theorem Call.assured_stayingDown (call : Call) : call.Assured stayingDown := by
  have returned : ∀ (reply : Reply) (c : Client) (h : List Moment), ClosedOnceDown c h →
      ClosedOnceDown c (.returned reply :: h) ∧ True :=
    fun _ _ _ once => ⟨once.cons rfl nofun, trivial⟩
  by_cases down : call = .transportDown
  · subst down
    exact Call.assured_of_does does_transportDown (fun _ _ _ => ⟨trivial, trivial⟩) returned
  · refine Call.assured_of_does (does_of_every tolerates_stayingDown call.every_follows)
      (fun c h once => ⟨once.cons rfl fun same => down ?_, trivial⟩) returned
    cases same
    rfl

/-- Once the transport is down, the client is closed until another attempt begins. -/
theorem closed_of_down {allowed : Session → Turn → Prop} {config : Config} {seed : UInt32}
    {s : Session} (reachable : Session.ReachableBy allowed config seed s)
    (down : .transportDown ∈ callsOfAttempt s.history) : s.client.phase = .closed := by
  have start : ClosedOnceDown (.ofConfig config seed) [] := fun _ => rfl
  exact (Session.sound_of_assured Call.assured_stayingDown start reachable).holds down

/-! ### Deliveries -/

theorem CutOff.idle {config : Config} {seed : UInt32} {s : Session}
    (reachable : Session.Reachable config seed s) (cutOff : CutOff config s.history) :
    s.client.phase = .closed ∨ s.client.halted = true := by
  by_cases idle : s.client.phase = .closed ∨ s.client.halted = true
  · exact idle
  exfalso
  obtain ⟨active, listening⟩ := not_or.mp idle
  rw [Bool.not_eq_true] at listening
  have upToDate := (reads_of_reachable reachable).decoder active listening
  cases cutOff with
  | down reported => exact active (closed_of_down reachable reported)
  | faulted fault =>
    rw [upToDate.sound] at fault
    cases fault
  | closed close =>
    rw [upToDate.unclosed] at close
    cases close

/-- Bytes arrived and had no effect. -/
def Session.passOver (data : Bytes) (s : Session) : Session :=
  let ⟨c, callers, h⟩ := s
  ⟨c, callers, .returned .none :: .changed c c :: .called (.bytesArrived data) :: h⟩

theorem play_of_idle {s : Session} (idle : s.client.phase = .closed ∨ s.client.halted = true)
    {data : Bytes} {turn : Turn} (possible : s.turn? (.call (.bytesArrived data)) = some turn) :
    turn.play s.client = s.passOver data := by
  cases possible
  have nothing := Client.absorb_idle idle data
  show Session.act _ _ _ (Client.actOn (s.client.absorb data).1 >>= fun _ => pure Reply.none)
    (s.client.absorb data).2 (.changed s.client (s.client.absorb data).2 :: _) = _
  rw [nothing]
  rfl

/-- After a response was not accepted, the attempt is not open and does not open. Once it is cut
off, nothing that arrives has any effect before another attempt begins. -/
theorem delivery_ignored_of_rejected {config : Config} {seed : UInt32} {s : Session}
    (reachable : Session.Reachable config seed s) (rejected : ¬Accepted s.history)
    (cutOff : CutOff config s.history) :
    s.client.phase ≠ .opened ∧ s.client.phase ≠ .closingRemote ∧
      ∀ data turn, s.turn? (.call (.bytesArrived data)) = some turn →
        turn.play s.client = s.passOver data := by
  have vouched := vouched_of_reachable reachable
  have marked : s.client.rejected = true := by
    cases mark : s.client.rejected with
    | true => rfl
    | false => exact absurd (vouched.accepted mark) rejected
  obtain ⟨unopened, unanswered⟩ := vouched.rejected marked
  exact ⟨unopened, unanswered, fun _ _ possible => play_of_idle (cutOff.idle reachable) possible⟩

/-! ### A response that is refused -/

def Moment.response? : Moment → Option UpgradeResponse
  | called (.responseArrived response) => some response
  | _ => none

/-- The responses that arrived during the handshake of the attempt under way, latest first. -/
def responses (h : List Moment) : List UpgradeResponse :=
  (handshake h).filterMap Moment.response?

theorem mem_handshake_of_mem_responses {h : List Moment} {response : UpgradeResponse}
    (arrived : response ∈ responses h) : .called (.responseArrived response) ∈ handshake h := by
  obtain ⟨moment, isIn, isResponse⟩ := List.mem_filterMap.mp arrived
  unfold Moment.response? at isResponse
  split at isResponse
  · cases isResponse
    exact isIn
  · cases isResponse

theorem not_accepted_of_status {h : List Moment} {response : UpgradeResponse}
    (arrived : response ∈ responses h) (status : response.status ≠ 101) : ¬Accepted h := by
  intro accepted
  obtain ⟨key, -, valid⟩ := accepted response (mem_handshake_of_mem_responses arrived)
  rw [UpgradeResponse.validate, UpgradeResponse.flaw?, if_pos status] at valid
  cases valid

/-- The server refuses the upgrade, and the transport is asked to go down. -/
def refusedUpgrade : List Choice :=
  [.call (.connectAsync (.ofNonce [])), .answer Request.takenUp,
    .call (.responseArrived ⟨403, []⟩), .answer Request.takenUp]

theorem delivery_ignored_of_rejected_down :
    ∃ s, Session.after (refusedUpgrade ++ [.call .transportDown]) (.ofConfig {} 0) = some s ∧
      ¬Accepted s.history ∧ CutOff {} s.history ∧ s.client.phase ≠ .opened ∧
      s.client.phase ≠ .closingRemote ∧
      ∀ data turn, s.turn? (.call (.bytesArrived data)) = some turn →
        turn.play s.client = s.passOver data := by
  have played : (Session.after (refusedUpgrade ++ [.call .transportDown]) (.ofConfig {} 0)).map
      (fun s => (responses s.history, decide (.transportDown ∈ callsOfAttempt s.history))) =
      some ([⟨403, []⟩], true) := by
    decide +kernel
  obtain ⟨s, made, told⟩ := Option.map_eq_some_iff.mp played
  simp only [Prod.mk.injEq, decide_eq_true_eq] at told
  obtain ⟨arrived, down⟩ := told
  have rejected := not_accepted_of_status (arrived ▸ List.mem_cons_self) (by decide)
  exact ⟨s, made, rejected, .down down,
    delivery_ignored_of_rejected (.after .start made) rejected (.down down)⟩

/-- A text that the server sends after it refused the upgrade is queued. -/
theorem rejected_server_is_heard :
    ∃ s turn, Session.after refusedUpgrade (.ofConfig {} 0) = some s ∧ ¬Accepted s.history ∧
      s.turn? (.call (.bytesArrived [0x81, 0x02, 0x68, 0x69])) = some turn ∧
      attempts (turn.play s.client).history = attempts s.history ∧
      s.client.mailbox.messages = [] ∧
      (turn.play s.client).client.mailbox.messages = [.text "hi"] := by
  have played : ((Session.after refusedUpgrade (.ofConfig {} 0)).bind fun s =>
      (s.turn? (.call (.bytesArrived [0x81, 0x02, 0x68, 0x69]))).map fun turn =>
        (responses s.history, attempts s.history, attempts (turn.play s.client).history,
          s.client.mailbox.messages, (turn.play s.client).client.mailbox.messages)) =
      some ([⟨403, []⟩], 1, 1, [], [.text "hi"]) := by
    decide +kernel
  obtain ⟨s, made, played⟩ := Option.bind_eq_some_iff.mp played
  obtain ⟨turn, possible, told⟩ := Option.map_eq_some_iff.mp played
  simp only [Prod.mk.injEq] at told
  obtain ⟨arrived, before, after, empty, queued⟩ := told
  have rejected := not_accepted_of_status (arrived ▸ List.mem_cons_self) (by decide)
  exact ⟨s, turn, made, rejected, possible, after.trans before.symm, empty, queued⟩

end WebSocket
