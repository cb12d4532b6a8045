import WebSocket.Proofs.Session.Refused

/-!
# Closes that the transport does not take

An open connection is closing from the moment that the application closes it, before the transport
is asked to take the close. So where the answer is `false`, a close that was not needed has changed
nothing (`declined_of_turn`), but one that the transport did not take leaves a connection that is
closing, and no close on its way (`close_not_taken_counts_as_sent`).
-/

namespace WebSocket

open WebSocket.Action

/-! ### A close on its way out -/

/-- What is left of a close that has the gate. -/
def Client.leaveClose (parcel : Parcel) : Action Reply :=
  Client.pastGate Client.always parcel (fun bytes => request (.sendAsync bytes)) >>= fun answer =>
    .done (.outcome answer)

def Client.reportTaken (taken : Bool) : Action Reply :=
  .access Client.leaveGate fun _ => .done (.outcome (.ok taken))

/-- Where a close on its way out gives up control. -/
inductive Halt.LeavesClose (parcel : Parcel) : Halt → Prop
  | atGate : LeavesClose parcel (.waiting none Client.isFree (Client.leaveClose parcel))
  | withTransport (key : MaskKey) :
    LeavesClose parcel (.asking (.sendAsync (parcel.encode key)) Client.reportTaken)

theorem Client.leaveClose_eq (parcel : Parcel) (c : Client) : ∃ (gate : Gate) (key : MaskKey),
    ∀ (call : Call) since callers h,
      Session.act call since callers (leaveClose parcel) c h =
        ⟨{ c with gate }, ⟨call, since, .asking (.sendAsync (parcel.encode key)) reportTaken⟩ ::
          callers, .asked (.sendAsync (parcel.encode key)) :: .changed c { c with gate } :: h⟩ :=
  ⟨_, _, fun _ _ _ _ => rfl⟩

theorem Client.closeRefusal?_eq_none {code : CloseCode} {c : Client}
    (takenUp : c.closeRefusal? code = none) : code.isAllowed = true ∧ c.phase = .opened := by
  unfold closeRefusal? at takenUp
  cases allowed : code.isAllowed with
  | false => simp only [allowed, Bool.not_false, if_true, reduceCtorEq] at takenUp
  | true =>
    cases phase : c.phase <;> simp only [allowed, phase, Bool.not_true, Bool.false_eq_true,
      if_false, reduceCtorEq] at takenUp
    exact ⟨rfl, rfl⟩

/-- A close is decided on before it gets the gate. -/
theorem Call.action_sendCloseAsync (code : CloseCode) (reason : String) :
    (sendCloseAsync code reason).action = .access (fun c => (c.beginClose code).2) fun c =>
      match c.closeRefusal? code with
      | some refusal => .done (.outcome (refusal.map fun _ => false))
      | none => .wait none Client.isFree
        (Client.leaveClose (closeParcel code.status (Bytes.ofString reason))) := by
  refine congrArg (Action.access _) (funext fun c => ?_)
  cases closes : c.closeRefusal? code with
  | some refusal =>
    simp only [Client.beginClose_refused closes]
    cases refusal <;> rfl
  | none =>
    obtain ⟨allowed, opened⟩ := Client.closeRefusal?_eq_none closes
    simp only [Client.beginClose_opened allowed opened]
    rfl

theorem Call.halts_leavesClose (call : Call) :
    call.action.Halts fun halt => ∀ code reason, call = .sendCloseAsync code reason →
      halt.LeavesClose (closeParcel code.status (Bytes.ofString reason)) := by
  cases call with
  | sendCloseAsync code reason =>
    rw [action_sendCloseAsync]
    intro c
    beta_reduce
    split
    · trivial
    · refine ⟨fun _ _ same => ?_, fun c => ⟨fun _ _ same => ?_, fun taken c => trivial⟩⟩
      · cases same
        exact .atGate
      · cases same
        exact .withTransport _
  | _ => exact halts_of_all (fun _ _ _ => nofun) _

/-! ### Turns -/

def Turn.Returns (turn : Turn) (reply : Reply) (c : Client) : Prop :=
  ∃ c' new, turn.play c = ⟨c', turn.callers, .returned reply :: (new ++ turn.history)⟩

theorem Turn.Refused.returns {turn : Turn} {reply : Reply} {c : Client}
    (refused : turn.Refused reply c) : turn.Returns reply c := by
  obtain ⟨looks, played, -⟩ := refused
  exact ⟨c, looks, played⟩

theorem Turn.Refused.reply_eq {turn : Turn} {reply reply' : Reply} {c : Client}
    (refused : turn.Refused reply c) (returns : turn.Returns reply' c) : reply = reply' := by
  obtain ⟨looks, played, -⟩ := refused
  obtain ⟨c', new, ended⟩ := returns
  rw [played] at ended
  simp only [Session.mk.injEq, List.cons.injEq, Moment.returned.injEq] at ended
  exact ended.2.2.1

theorem Turn.not_returns {turn : Turn} {reply : Reply} {c : Client} {caller : Caller}
    (underWay : (turn.play c).callers = caller :: turn.callers) : ¬turn.Returns reply c := by
  rintro ⟨c', new, ended⟩
  rw [ended] at underWay
  exact absurd underWay.symm (List.cons_ne_self _ _)

theorem Client.beginClose_negotiation {code : CloseCode} {c : Client}
    (takenUp : c.closeRefusal? code = none) : (c.beginClose code).2.negotiation =
      { c.negotiation with phase := .closingLocal, sent := some code.status } := by
  obtain ⟨allowed, opened⟩ := closeRefusal?_eq_none takenUp
  rw [beginClose_opened allowed opened]
  simp only [phase] at opened
  simp only [closeLocally, Negotiation.closeLocally, opened]

/-- A close that is not refused closes at once, whatever becomes of it. -/
theorem Turn.play_sendCloseAsync {turn : Turn} {code : CloseCode} {reason : String} {c : Client}
    (begins : turn.course = (Call.sendCloseAsync code reason).action)
    (takenUp : c.closeRefusal? code = none) :
    (turn.play c).client.negotiation =
      { c.negotiation with phase := .closingLocal, sent := some code.status } ∧
    ∃ halt, (turn.play c).callers = ⟨turn.call, turn.since, halt⟩ :: turn.callers := by
  have negotiation := Client.beginClose_negotiation takenUp
  simp only [play, begins, Call.action_sendCloseAsync, Session.act, takenUp]
  split
  · obtain ⟨gate, key, leaves⟩ := Client.leaveClose_eq
      (closeParcel code.status (Bytes.ofString reason)) (c.beginClose code).2
    rw [leaves]
    exact ⟨negotiation, _, rfl⟩
  · exact ⟨negotiation, _, rfl⟩

theorem Turn.refused_sendCloseAsync {turn : Turn} {code : CloseCode} {reason : String} {c : Client}
    (begins : turn.course = (Call.sendCloseAsync code reason).action) {reply : Reply}
    (returns : turn.Returns reply c) : turn.Refused reply c := by
  cases closes : c.closeRefusal? code with
  | none =>
    obtain ⟨-, halt, underWay⟩ := Turn.play_sendCloseAsync begins closes
    exact absurd returns (Turn.not_returns underWay)
  | some refusal =>
    have isRefused : (Call.sendCloseAsync code reason).refusal? c =
        some (.outcome (refusal.map fun _ => false)) := by
      rw [Call.refusal?, closes]
      rfl
    have refuses := Call.refuses isRefused (fun isMessage => by cases isMessage)
    rw [← begins] at refuses
    have refused := refuses turn.call turn.since turn.callers turn.history
    rw [Turn.Refused.reply_eq refused returns] at refused
    exact refused

theorem Turn.not_returns_leaveClose {turn : Turn} {parcel : Parcel}
    (leaves : turn.course = Client.leaveClose parcel) (reply : Reply) (c : Client) :
    ¬turn.Returns reply c := by
  obtain ⟨gate, key, asked⟩ := Client.leaveClose_eq parcel c
  have played := asked turn.call turn.since turn.callers turn.history
  rw [← leaves] at played
  exact Turn.not_returns (congrArg Session.callers played)

theorem Turn.play_reportTaken {turn : Turn} {taken : Bool}
    (reports : turn.course = Client.reportTaken taken) (c : Client) :
    turn.play c = ⟨c.leaveGate, turn.callers,
      .returned (.outcome (.ok taken)) :: .changed c c.leaveGate :: turn.history⟩ := by
  rw [play, reports]
  rfl

theorem Turn.taken_of_returns {turn : Turn} {taken said : Bool}
    (reports : turn.course = Client.reportTaken taken) {c : Client}
    (returns : turn.Returns (.outcome (.ok said)) c) : taken = said := by
  obtain ⟨c', new, ended⟩ := returns
  rw [Turn.play_reportTaken reports] at ended
  simp only [Session.mk.injEq, List.cons.injEq, Moment.returned.injEq, Reply.outcome.injEq,
    Except.ok.injEq] at ended
  exact ended.2.2.1

/-! ### Sessions -/

theorem Session.close_of_turn {config : Config} {seed : UInt32} {s : Session}
    (reachable : Reachable config seed s) {choice : Choice} {turn : Turn}
    (possible : s.turn? choice = some turn) {code : CloseCode} {reason : String}
    (isClose : turn.call = .sendCloseAsync code reason) :
    let parcel := closeParcel code.status (Bytes.ofString reason)
    choice = .call turn.call ∧ turn.course = turn.call.action ∨
    (∃ how key, let r : Request := .sendAsync (parcel.encode key)
      choice = .answer how ∧ turn.course = Client.reportTaken (how r) ∧
        turn.history = .answered r (how r) :: s.history) ∨
    choice = .goOn ∧ turn.course = Client.leaveClose parcel := by
  have leaves := fun caller isIn =>
    (halts_of_reachable Call.halts_leavesClose reachable caller isIn).1
  clear reachable
  obtain ⟨c, callers, h⟩ := s
  cases choice with
  | call call =>
    cases possible
    exact .inl ⟨rfl, rfl⟩
  | answer how =>
    match callers, possible, leaves with
    | ⟨call, since, .asking request next⟩ :: callers, possible, leaves =>
      cases possible
      cases leaves _ List.mem_cons_self code reason isClose with
      | withTransport key => exact .inr (.inl ⟨how, key, rfl, rfl, rfl⟩)
  | goOn =>
    match callers, possible, leaves with
    | ⟨call, since, .waiting limit ready next⟩ :: callers, possible, leaves =>
      simp only [turn?] at possible
      split at possible <;> cases possible
      cases leaves _ List.mem_cons_self code reason isClose with
      | atGate => exact .inr (.inr ⟨rfl, rfl⟩)

/-- An asynchronous close answers `false` without having asked the transport only where it has
changed nothing. On an open connection it closes when it is called, and takes that back on no
answer of the transport. -/
theorem declined_of_turn {config : Config} {seed : UInt32} {s : Session}
    (reachable : Session.Reachable config seed s) {choice : Choice} {turn : Turn}
    (possible : s.turn? choice = some turn) {code : CloseCode} {reason : String}
    (isClose : turn.call = .sendCloseAsync code reason) (allowed : code.isAllowed = true) :
    (turn.Returns (.outcome (.ok false)) s.client →
      (∀ bytes, turn.history ≠ .answered (.sendAsync bytes) false :: s.history) →
        choice = .call turn.call ∧ turn.Refused (.outcome (.ok false)) s.client) ∧
    (choice = .call turn.call → s.client.phase = .opened →
      (turn.play s.client).client.negotiation =
        { s.client.negotiation with phase := .closingLocal, sent := some code.status }) ∧
    ∀ how, choice = .answer how → ∃ bytes,
      let taken := how (.sendAsync bytes)
      turn.history = .answered (.sendAsync bytes) taken :: s.history ∧
      turn.play s.client = ⟨s.client.leaveGate, turn.callers,
        .returned (.outcome (.ok taken)) :: .changed s.client s.client.leaveGate ::
          turn.history⟩ := by
  rcases Session.close_of_turn reachable possible isClose with
    ⟨rfl, begins⟩ | ⟨how, key, rfl, reports, answered⟩ | ⟨rfl, leaves⟩
  -- The call is made: it is refused, or it closes and is under way.
  · rw [isClose] at begins
    have closes : s.client.phase = .opened → s.client.closeRefusal? code = none := by
      intro opened
      simp only [Client.closeRefusal?, allowed, opened, Bool.not_true, Bool.false_eq_true, if_false]
    refine ⟨fun returns _ => ⟨rfl, Turn.refused_sendCloseAsync begins returns⟩, fun _ opened => ?_,
      fun how other => by cases other⟩
    exact (Turn.play_sendCloseAsync begins (closes opened)).1
  -- The transport has answered, and the call says the same.
  · have played := Turn.play_reportTaken reports s.client
    refine ⟨fun returns wasTaken => ?_, (fun other => by cases other), fun _ same => ?_⟩
    · have notTaken := Turn.taken_of_returns reports returns
      rw [notTaken] at answered
      exact absurd answered (wasTaken _)
    · cases same
      exact ⟨_, answered, played⟩
  -- The call has the gate, and asks the transport.
  · have goesOn := Turn.not_returns_leaveClose leaves (.outcome (.ok false)) s.client
    exact ⟨fun returns => absurd returns goesOn, (fun other => by cases other),
      fun how other => by cases other⟩

/-- The connection is closing already, and the second close is not needed. -/
theorem declined_of_turn_again :
    ∃ s turn, Session.after
        (openConnection ++ [.call (.sendCloseAsync .normal ""), .answer Request.takenUp])
        (.ofConfig {} 0) = some s ∧
      s.turn? (.call (.sendCloseAsync .goingAway "")) = some turn ∧
      CloseCode.goingAway.isAllowed = true ∧ turn.Returns (.outcome (.ok false)) s.client ∧
      turn.Refused (.outcome (.ok false)) s.client := by
  have played : (Session.after
      (openConnection ++ [.call (.sendCloseAsync .normal ""), .answer Request.takenUp])
      (.ofConfig {} 0)).map (fun s => s.client.phase) = some .closingLocal := by
    decide +kernel
  obtain ⟨s, made, closing⟩ := Option.map_eq_some_iff.mp played
  obtain ⟨turn, possible⟩ : ∃ turn, s.turn? (.call (.sendCloseAsync .goingAway "")) = some turn :=
    ⟨_, rfl⟩
  obtain ⟨declined, -⟩ := declined_of_turn (.after .start made) possible (by cases possible; rfl)
    (by decide : CloseCode.goingAway.isAllowed = true)
  cases possible
  have isRefused : (Call.sendCloseAsync .goingAway "").refusal? s.client =
      some (.outcome (.ok false)) := by
    simp only [Call.refusal?, Client.closeRefusal?, closing]
    rfl
  have refuses := Call.refuses isRefused fun isMessage => by cases isMessage
  have returns := (refuses (.sendCloseAsync .goingAway "") s.history s.callers
    (.called (.sendCloseAsync .goingAway "") :: s.history)).returns
  exact ⟨s, _, made, rfl, by decide, returns, (declined returns fun _ other => by cases other).2⟩

def Request.leftBehind : (r : Request) → r.Answer
  | sendAsync _ => false
  | r => r.takenUp

def Moment.saysNo : Moment → Bool
  | returned (.outcome (.ok false)) => true
  | _ => false

theorem Moment.eq_of_saysNo {moment : Moment} (no : moment.saysNo = true) :
    moment = .returned (.outcome (.ok false)) := by
  unfold saysNo at no
  split at no
  · rfl
  · cases no

/-- The transport does not take the close. The call says that nothing was sent, but the connection
is closing with the status of that close, and another close is not sent either. -/
theorem close_not_taken_counts_as_sent :
    ∃ s s' s'' : Session, Session.after openConnection (.ofConfig {} 0) = some s ∧
      s.client.negotiation = { phase := .opened } ∧
      Session.after [.call (.sendCloseAsync .normal ""), .answer Request.leftBehind] s = some s' ∧
      s'.history.head? = some (.returned (.outcome (.ok false))) ∧
      s'.client.negotiation = { phase := .closingLocal, sent := some 1000 } ∧
      Session.after [.call (.sendClose .normal "" none)] s' = some s'' ∧ s''.callers = [] ∧
      handed s''.history = handed s'.history := by
  have played : ((Session.after openConnection (.ofConfig {} 0)).bind fun s =>
      (Session.after [.call (.sendCloseAsync .normal ""), .answer Request.leftBehind] s).bind
        fun s' => (Session.after [.call (.sendClose .normal "" none)] s').map fun s'' =>
          (s.client.negotiation, s'.client.negotiation, s'.history.head?.map Moment.saysNo,
            s''.callers.isEmpty, decide (handed s''.history = handed s'.history))) =
      some ({ phase := .opened }, { phase := .closingLocal, sent := some 1000 }, some true,
        true, true) := by
    decide +kernel
  obtain ⟨s, made, played⟩ := Option.bind_eq_some_iff.mp played
  obtain ⟨s', declined, played⟩ := Option.bind_eq_some_iff.mp played
  obtain ⟨s'', again, told⟩ := Option.map_eq_some_iff.mp played
  simp only [Prod.mk.injEq, Option.map_eq_some_iff, List.isEmpty_iff, decide_eq_true_eq] at told
  obtain ⟨opened, closing, ⟨moment, last, no⟩, ended, silent⟩ := told
  rw [Moment.eq_of_saysNo no] at last
  exact ⟨s, s', s'', made, opened, declined, last, closing, again, ended, silent⟩

end WebSocket
