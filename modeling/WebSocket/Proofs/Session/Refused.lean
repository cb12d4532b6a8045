import WebSocket.Proofs.Session.Halts
import WebSocket.Proofs.Session.Legal

/-!
# Calls that are refused

A call that does not fit the phase is refused: it has its reply at once, and nothing has changed
(`refused_of_turn`). What a message is refused for is decided when it gets the gate. Until then it
waits, and that changes nothing either.
-/

namespace WebSocket

open WebSocket.Action

/-! ### What is refused -/

/-- What a message fails with while the connection is not open; the status is that of the server's
close, if there was one. -/
def Client.notOpen (c : Client) : Error :=
  .connectionClosed (c.received.map fun body => body.code.status)

/-- Why a close is not begun: it fails, or there is nothing left to close. -/
def Client.closeRefusal? (code : CloseCode) (c : Client) : Option (Except Error Unit) :=
  if !code.isAllowed then some (.error (.invalidCloseCode code.status))
  else
    match c.phase with
    | .opened => none
    | .closingLocal | .closingRemote | .closed => some (.ok ())
    | .connecting => some (.error (.connectionClosed none))

/-- The reply of a call that is refused; `none` if the client takes it up. -/
def Call.refusal? (call : Call) (c : Client) : Option Reply :=
  match call with
  | connect _ | connectAsync _ => if c.phase = .closed then none else some (.outcome (.ok false))
  | disconnect | disconnectAsync => if c.phase = .closed then some (.flag false) else none
  | send .. => if c.phase = .opened then none else some (.count (.error c.notOpen))
  | sendAsync _ => if c.phase = .opened then none else some (.outcome (.error c.notOpen))
  | sendClose code .. => (c.closeRefusal? code).map fun refusal => .count (refusal.map fun _ => 0)
  | sendCloseAsync code _ =>
    (c.closeRefusal? code).map fun refusal => .outcome (refusal.map fun _ => false)
  | _ => none

/-- What a call sends that needs an open connection. -/
def Call.message? : Call → Option Parcel
  | send what _ | sendAsync what => some what.parcel
  | _ => none

/-- The turn ends the call at once. Neither was anything asked for nor anybody told anything, and
the client is as it was. -/
def Turn.Refused (turn : Turn) (reply : Reply) (c : Client) : Prop :=
  ∃ looks, turn.play c = ⟨c, turn.callers, .returned reply :: (looks ++ turn.history)⟩ ∧
    ∀ moment ∈ looks, moment = .changed c c

def Client.isFree (c : Client) : Bool := !c.gate.isHeld

/-- The turn leaves the call waiting for the gate, and the client as it was. -/
def Turn.Waits (turn : Turn) (c : Client) : Prop :=
  ∃ next looks,
    turn.play c = ⟨c, ⟨turn.call, turn.since, .waiting none Client.isFree next⟩ :: turn.callers,
      looks ++ turn.history⟩ ∧
    ∀ moment ∈ looks, moment = .changed c c

/-- A choice that decides about a call: it is made, or a message that waited gets the gate. -/
def Choice.decides (choice : Choice) (call : Call) (c : Client) : Bool :=
  match choice with
  | .call _ => call.message?.isNone || c.isFree
  | .goOn => call.message?.isSome
  | .answer _ => false

/-! ### Courses that change nothing -/

/-- A course of steps ends in a reply, and has changed nothing. -/
def Action.Refuses (reply : Reply) (x : Action Reply) (c : Client) : Prop :=
  ∀ call since callers h, (Turn.mk call since x callers h).Refused reply c

section Refuses

variable {α β : Type} {reply : Reply} {c : Client}

theorem refuses_done : (Action.done reply).Refuses reply c :=
  fun _ _ _ _ => ⟨[], rfl, fun _ isIn => absurd isIn List.not_mem_nil⟩

theorem refuses_step_bind {f : Client → α × Client} {value : α} {k : α → Action Reply}
    (known : f c = (value, c)) (later : (k value).Refuses reply c) :
    (step f >>= k).Refuses reply c := by
  intro call since callers h
  have first : Session.act call since callers (step f >>= k) c h =
      Session.act call since callers (k (f c).1) (f c).2 (.changed c (f c).2 :: h) := rfl
  rw [known] at first
  obtain ⟨looks, played, looking⟩ := later call since callers (.changed c c :: h)
  refine ⟨looks ++ [.changed c c], first.trans (played.trans ?_), fun moment isIn => ?_⟩
  · simp only [List.append_assoc, List.singleton_append]
  · rcases List.mem_append.mp isIn with isLater | isFirst
    · exact looking moment isLater
    · exact List.mem_singleton.mp isFirst

/-- The same where the step is the first of a course that others follow. -/
theorem refuses_first {f : Client → α × Client} {value : α} {k : α → Action β}
    {k' : β → Action Reply} (known : f c = (value, c))
    (later : (k value >>= k').Refuses reply c) : ((step f >>= k) >>= k').Refuses reply c := by
  rw [Action.bind_assoc]
  exact refuses_step_bind known later

theorem refuses_waitFor_bind {limit : Option Duration} {ready : Client → Bool}
    {k : Unit → Action Reply} (isOver : ready c = true) (later : (k ()).Refuses reply c) :
    (waitFor limit ready >>= k).Refuses reply c := by
  intro call since callers h
  obtain ⟨looks, played, looking⟩ := later call since callers h
  refine ⟨looks, ?_, looking⟩
  rw [← played]
  show (if ready c then _ else _ : Session) = _
  rw [if_pos isOver]
  rfl

variable {consent : Client → Except Error Unit} {parcel : Parcel} {e : Error}

theorem refuses_pastGate {transmit : Bytes → Action α} {k : Except Error α → Action Reply}
    (refused : consent c = .error e) (later : (k (.error e)).Refuses reply c) :
    (Client.pastGate consent parcel transmit >>= k).Refuses reply c :=
  refuses_first (Client.enterGate_refused refused parcel) later

theorem refuses_throughGate {transmit : Bytes → Action α} {k : Except Error α → Action Reply}
    (free : c.isFree = true) (refused : consent c = .error e)
    (later : (k (.error e)).Refuses reply c) :
    (Client.throughGate consent parcel transmit >>= k).Refuses reply c := by
  rw [Client.throughGate_eq, Action.bind_assoc]
  exact refuses_waitFor_bind free (refuses_pastGate refused later)

theorem refuses_transmit {limit : Option Duration} {k : Except Error Nat → Action Reply}
    (free : c.isFree = true) (refused : consent c = .error e)
    (later : (k (.error e)).Refuses reply c) :
    (Client.transmit consent parcel limit >>= k).Refuses reply c := by
  change ((step (fun c => (c, c)) >>= _) >>= _).Refuses _ c
  refine refuses_first rfl ?_
  show ((Client.throughGate _ _ _ >>= _) >>= _).Refuses _ c
  rw [Action.bind_assoc]
  exact refuses_throughGate free refused later

end Refuses

/-! ### Calls -/

namespace Client

theorem beginConnect_active {c : Client} (active : c.phase ≠ .closed) (key : HandshakeKey)
    (awaited : Bool) : c.beginConnect key awaited = (false, c) := by
  rw [phase] at active
  simp only [beginConnect, Negotiation.beginConnect, if_neg active]

theorem beginDisconnect_closed {c : Client} (closed : c.phase = .closed) :
    c.beginDisconnect = (none, c) := by
  simp only [beginDisconnect, if_pos closed]

theorem checkOpen_refused {c : Client} (notOpened : c.phase ≠ .opened) :
    c.checkOpen = .error c.notOpen := by
  have cannot : c.phase.canSend = false := by
    cases phase : c.phase <;> first | rfl | exact absurd phase notOpened
  simp only [checkOpen, cannot, Bool.false_eq_true, if_false, notOpen]

theorem beginClose_refused {code : CloseCode} {c : Client} {refusal : Except Error Unit}
    (refused : c.closeRefusal? code = some refusal) :
    c.beginClose code = (refusal.map fun _ => none, c) := by
  unfold closeRefusal? at refused
  unfold beginClose
  split at refused
  · cases refused
    rw [if_pos ‹_›]
    rfl
  · rw [if_neg ‹_›]
    cases phase : c.phase <;> simp only [phase] at refused <;> cases refused <;> rfl

end Client

theorem Call.refuses {call : Call} {c : Client} {reply : Reply}
    (refused : call.refusal? c = some reply)
    (free : call.message?.isSome = true → c.isFree = true) : call.action.Refuses reply c := by
  cases call with
  | connect key | connectAsync key =>
    simp only [refusal?, Option.ite_none_left_eq_some, Option.some.injEq] at refused
    obtain ⟨active, rfl⟩ := refused
    exact refuses_first (Client.beginConnect_active active key _) refuses_done
  | disconnect | disconnectAsync =>
    simp only [refusal?, Option.ite_none_right_eq_some, Option.some.injEq] at refused
    obtain ⟨closed, rfl⟩ := refused
    exact refuses_first (Client.beginDisconnect_closed closed) refuses_done
  | send what limit =>
    simp only [refusal?, Option.ite_none_left_eq_some, Option.some.injEq] at refused
    obtain ⟨notOpened, rfl⟩ := refused
    exact refuses_transmit (free rfl) (Client.checkOpen_refused notOpened) refuses_done
  | sendAsync what =>
    simp only [refusal?, Option.ite_none_left_eq_some, Option.some.injEq] at refused
    obtain ⟨notOpened, rfl⟩ := refused
    exact refuses_throughGate (free rfl) (Client.checkOpen_refused notOpened) refuses_done
  | sendClose code reason | sendCloseAsync code reason =>
    obtain ⟨refusal, closes, rfl⟩ := Option.map_eq_some_iff.mp refused
    refine refuses_first (Client.beginClose_refused closes) ?_
    cases refusal <;> exact refuses_done
  | _ => cases refused

/-! ### Messages -/

theorem Call.waits {call : Call} (isMessage : call.message?.isSome = true) {c : Client}
    (held : c.isFree = false) {since : List Moment} {callers : List Caller} {h : List Moment} :
    (Turn.mk call since call.action callers h).Waits c := by
  have stuck : ∀ {next h'}, Session.act call since callers (.wait none Client.isFree next) c h' =
      ⟨c, ⟨call, since, .waiting none Client.isFree next⟩ :: callers, h'⟩ := by
    intro next h'
    simp only [Session.act, held, Bool.false_eq_true, if_false]
  cases call with
  | send what limit =>
    refine ⟨_, [.changed c c], stuck, ?_⟩
    intro moment isIn
    exact List.mem_singleton.mp isIn
  | sendAsync what => exact ⟨_, [], stuck, fun _ isIn => absurd isIn List.not_mem_nil⟩
  | _ => cases isMessage

end WebSocket
