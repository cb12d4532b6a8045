import WebSocket.Proofs.Frame.Written
import WebSocket.Proofs.Session.Course

/-!
# What leaves is one frame

Whatever a client hands to the transport is one final, masked frame and nothing else, and it carries
what the call that has control sends (`frame_of_turn`). It obeys the rules for frames, with one
exception: nobody checks whether what an application gives for a ping, a pong or the reason of a
close fits a control frame (`Call.isOverlong`).
-/

namespace WebSocket

open WebSocket.Action

/-! ### What was handed over -/

def Moment.frame? : Moment → Option Bytes
  | asked request => request.frame?
  | called _ | changed .. | answered .. | returned _ => none

/-- The frames that were handed over, latest first. -/
def handed (h : List Moment) : List Bytes := h.filterMap Moment.frame?

theorem handed_append (new h : List Moment) : handed (new ++ h) = handed new ++ handed h :=
  List.filterMap_append

theorem asked_of_handed {h : List Moment} {bytes : Bytes} (isHanded : bytes ∈ handed h) :
    ∃ r, .asked r ∈ h ∧ r.frame? = some bytes := by
  obtain ⟨moment, isIn, frame⟩ := List.mem_filterMap.mp isHanded
  cases moment with
  | asked request => exact ⟨request, isIn, frame⟩
  | called | changed | answered | returned => cases frame

/-- Bytes that are one final, masked frame and nothing else. -/
structure OneFrame (frame : Frame) (bytes : Bytes) : Prop where
  parsed : Frame.parse bytes = .ok (frame, bytes.length)
  final : frame.fin = true
  masked : bytes[1]?.map Frame.isMasked = some true

theorem Parcel.oneFrame (parcel : Parcel) (key : MaskKey)
    (bounded : (parcel.encode key).length < 2 ^ 63) :
    OneFrame parcel.frame (parcel.encode key) := by
  rw [Parcel.encode_eq] at bounded ⊢
  refine ⟨parcel.frame.parse_encode (some key) bounded, rfl, ?_⟩
  have fits : parcel.frame.payload.length < 2 ^ 63 :=
    Nat.lt_of_le_of_lt (parcel.frame.length_payload_le_encode (some key)) bounded
  obtain ⟨second, extended, announces, written⟩ := Frame.lengthAndKey_announces (some key) fits
  simp only [Frame.encode, written, List.cons_append, List.getElem?_cons_succ,
    List.getElem?_cons_zero, Option.map_some, announces.masked, Option.isSome_some]

/-! ### Which frames obey the rules -/

/-- What the application gives is too much for a control frame. A close has its status in front of
the reason. -/
def Call.isOverlong : Call → Bool
  | send (.ping payload) _ | send (.pong payload) _ | sendAsync (.ping payload)
  | sendAsync (.pong payload) => maxControlPayload < payload.length
  | sendClose _ reason _ | sendCloseAsync _ reason =>
    maxControlPayload < (Bytes.ofString reason).length + 2
  | _ => false

def Parcel.isOverlong (parcel : Parcel) : Bool :=
  parcel.opcode.isControl && maxControlPayload < parcel.frame.payload.length

theorem Parcel.validate_frame (parcel : Parcel) :
    parcel.frame.validate =
      if parcel.isOverlong then .error (.controlFrameTooLarge parcel.frame.payload.length)
      else .ok () := by
  show (if parcel.opcode.isControl then _ else _) = _
  unfold isOverlong
  cases parcel.opcode.isControl <;> simp [Parcel.frame]

theorem Parcel.isOverlong_closeParcel (status : UInt16) (reason : Bytes) :
    (closeParcel status reason).isOverlong = decide (maxControlPayload < reason.length + 2) := by
  have length : (closeParcel status reason).frame.payload.length = reason.length + 2 := by
    simp only [closeParcel, Parcel.frame, Frame.statusBytes, Bytes.ofUInt16, Bytes.ofNat,
      List.nil_append, List.cons_append, List.length_cons]
  rw [Parcel.isOverlong, length]
  rfl

theorem Call.Sends.isOverlong {call : Call} {parcel : Parcel} (sends : call.Sends parcel) :
    parcel.isOverlong = call.isOverlong := by
  cases sends with
  | message what limit => cases what <;> rfl
  | messageAsync what => cases what <;> rfl
  | close code reason limit => exact Parcel.isOverlong_closeParcel _ _
  | closeAsync code reason => exact Parcel.isOverlong_closeParcel _ _
  | disconnect | disconnectAsync | connect key | answer data status =>
    exact Parcel.isOverlong_closeParcel _ _
  | pong data short => exact decide_eq_false (Nat.not_lt.mpr short)

/-! ### Calls -/

def Call.Hands (call : Call) (r : Request) : Prop :=
  ∀ bytes, r.frame? = some bytes → ∃ parcel key, call.Sends parcel ∧ bytes = parcel.encode key

theorem Call.hands_none (call : Call) {r : Request} (other : r.frame? = none) : call.Hands r := by
  intro bytes frame
  rw [other] at frame
  cases frame

theorem Call.hands_parcel {call : Call} {r : Request} {parcel : Parcel} {key : MaskKey}
    (sends : call.Sends parcel) (frame : r.frame? = some (parcel.encode key)) : call.Hands r := by
  intro bytes same
  rw [frame] at same
  cases same
  exact ⟨parcel, key, sends, rfl⟩

theorem Call.every_hands (call : Call) :
    call.action.Every (fun _ => True) (fun _ _ => True) call.Hands :=
  call.composed.every (fun _ _ _ => trivial) (fun _ => trivial) (fun _ _ _ _ _ => trivial)
    (fun _ => call.hands_none) (fun _ _ => call.hands_none rfl)
    fun _ _ _ orders => Call.hands_parcel orders.sends

/-! ### What is sent at once -/

/-- The parcel that a call sends on an open connection whose gate is free. -/
def Call.parcel? : Call → Option Parcel
  | send what _ | sendAsync what => some what.parcel
  | sendClose code reason _ | sendCloseAsync code reason =>
    if code.isAllowed then some (closeParcel code.status (Bytes.ofString reason)) else none
  | disconnect | disconnectAsync => some (closeParcel CloseCode.normal.status [])
  | _ => none

/-- A course of steps hands over one frame, that of a parcel, before it gives up control. -/
def Action.HandsOne (parcel : Parcel) (x : Action Reply) (c : Client) : Prop :=
  ∀ call since callers h, ∃ front key,
    (Session.act call since callers x c h).history = front ++ h ∧
      handed front = [parcel.encode key]

section HandsOne

variable {α : Type} {parcel : Parcel} {c : Client}

theorem Action.handsOne_step_bind {f : Client → α × Client} {k : α → Action Reply}
    (one : (k (f c).1).HandsOne parcel (f c).2) : (step f >>= k).HandsOne parcel c := by
  intro call since callers h
  obtain ⟨front, key, history, isOne⟩ := one call since callers (.changed c (f c).2 :: h)
  refine ⟨front ++ [.changed c (f c).2], key, ?_, ?_⟩
  · rw [List.append_assoc]
    exact history
  · rw [handed_append]
    exact (List.append_nil _).trans isOne

/-- The same where the step is the first of a course that others follow. -/
theorem Action.handsOne_first {β : Type} {f : Client → α × Client} {k : α → Action β}
    {k' : β → Action Reply} (one : (k (f c).1 >>= k').HandsOne parcel (f c).2) :
    ((step f >>= k) >>= k').HandsOne parcel c := by
  rw [bind_assoc]
  exact handsOne_step_bind one

theorem Action.handsOne_waitFor_bind {limit : Option Duration} {ready : Client → Bool}
    {k : Unit → Action Reply} (isOver : ready c = true) (one : (k ()).HandsOne parcel c) :
    (waitFor limit ready >>= k).HandsOne parcel c := by
  intro call since callers h
  obtain ⟨front, key, history, isOne⟩ := one call since callers h
  refine ⟨front, key, ?_, isOne⟩
  show (if ready c then _ else _ : Session).history = _
  rw [if_pos isOver, ← history]
  rfl

theorem handsOne_pastGate {consent : Client → Except Error Unit} {transmit : Bytes → Action α}
    {k : Except Error α → Action Reply} (handsOver : HandsOver transmit)
    (granted : consent c = .ok ()) :
    (Client.pastGate consent parcel transmit >>= k).HandsOne parcel c := by
  apply Action.handsOne_first
  obtain ⟨key, masks, entered⟩ := Client.enterGate_granted granted parcel
  obtain ⟨r, give, handed, frame⟩ := handsOver (parcel.encode key)
  rw [entered]
  simp only [handed]
  intro call since callers h
  refine ⟨[.asked r], key, rfl, ?_⟩
  simp only [WebSocket.handed, List.filterMap_cons, Moment.frame?, frame, List.filterMap_nil]

theorem handsOne_throughGate {consent : Client → Except Error Unit} {transmit : Bytes → Action α}
    {k : Except Error α → Action Reply} (handsOver : HandsOver transmit)
    (free : c.gate.isHeld = false) (granted : consent c = .ok ()) :
    (Client.throughGate consent parcel transmit >>= k).HandsOne parcel c := by
  rw [Client.throughGate_eq, bind_assoc]
  apply Action.handsOne_waitFor_bind (by rw [free]; rfl)
  exact handsOne_pastGate handsOver granted

theorem handsOne_transmit {consent : Client → Except Error Unit} {limit : Option Duration}
    {k : Except Error Nat → Action Reply} (free : c.gate.isHeld = false)
    (granted : consent c = .ok ()) :
    (Client.transmit consent parcel limit >>= k).HandsOne parcel c := by
  change ((Action.step (fun c => (c, c)) >>= _) >>= k).HandsOne parcel c
  apply Action.handsOne_first
  rw [bind_assoc]
  exact handsOne_throughGate (handsOver_transmitWithin _) free granted

end HandsOne

theorem Client.checkOpen_opened {c : Client} (opened : c.phase = .opened) :
    c.checkOpen = .ok () := by
  rw [checkOpen, opened]
  rfl

theorem Client.beginClose_opened {code : CloseCode} {c : Client} (allowed : code.isAllowed)
    (opened : c.phase = .opened) :
    c.beginClose code = (.ok (some code.status), (c.closeLocally code.status).2) := by
  simp only [beginClose, allowed, opened, Bool.not_true, Bool.false_eq_true, if_false]

theorem Client.beginDisconnect_opened {c : Client} (opened : c.phase = .opened) :
    c.beginDisconnect = (some true, (c.closeLocally CloseCode.normal.status).2) := by
  have ordered : (c.closeLocally CloseCode.normal.status).1 = true := by
    rw [phase] at opened
    simp only [closeLocally, Negotiation.closeLocally, opened]
  simp only [beginDisconnect, opened, reduceCtorEq, if_false, ordered]

theorem Call.handsOne {call : Call} {parcel : Parcel} (sends : call.parcel? = some parcel)
    {c : Client} (opened : c.phase = .opened) (free : c.gate.isHeld = false) :
    call.action.HandsOne parcel c := by
  have canSend := Client.checkOpen_opened opened
  cases call with
  | send what limit =>
    cases sends
    exact handsOne_transmit free canSend
  | sendAsync what =>
    cases sends
    exact handsOne_throughGate handsOver_sendAsync free canSend
  | sendClose code reason limit =>
    simp only [parcel?, Option.ite_none_right_eq_some, Option.some.injEq] at sends
    obtain ⟨allowed, rfl⟩ := sends
    apply Action.handsOne_first
    rw [Client.beginClose_opened allowed opened]
    exact handsOne_transmit free rfl
  | sendCloseAsync code reason =>
    simp only [parcel?, Option.ite_none_right_eq_some, Option.some.injEq] at sends
    obtain ⟨allowed, rfl⟩ := sends
    apply Action.handsOne_first
    rw [Client.beginClose_opened allowed opened]
    exact handsOne_throughGate handsOver_sendAsync free rfl
  | disconnect =>
    cases sends
    apply Action.handsOne_first
    rw [Client.beginDisconnect_opened opened]
    show ((((Client.throughGate _ _ _) >>= _) >>= _) >>= _).HandsOne _ _
    rw [bind_assoc, bind_assoc]
    exact handsOne_throughGate handsOver_send free rfl
  | disconnectAsync =>
    cases sends
    apply Action.handsOne_first
    rw [Client.beginDisconnect_opened opened]
    show ((((Client.throughGate _ _ _) >>= _) >>= _) >>= _).HandsOne _ _
    rw [bind_assoc, bind_assoc]
    exact handsOne_throughGate handsOver_sendAsync free rfl
  | _ => cases sends

/-! ### Sessions -/

/-- Whatever is handed over in a turn is one final, masked frame and nothing else: that of a parcel
which the call sends. The frame obeys the rules unless the call was given too much for it. On an
open connection whose gate is free a call that sends something hands it over at once. -/
theorem frame_of_turn {config : Config} {seed : UInt32} {s : Session}
    (reachable : Session.Reachable config seed s) {choice : Choice} {turn : Turn}
    (possible : s.turn? choice = some turn) :
    ∃ new, (turn.play s.client).history = new ++ turn.history ∧
      (∀ bytes ∈ handed new, bytes.length < 2 ^ 63 → ∃ parcel, turn.call.Sends parcel ∧
        OneFrame parcel.frame bytes ∧ parcel.frame.validate =
          if turn.call.isOverlong then .error (.controlFrameTooLarge parcel.frame.payload.length)
          else .ok ()) ∧
      ∀ call parcel, choice = .call call → call.parcel? = some parcel →
        s.client.phase = .opened → s.client.gate.isHeld = false →
          ∃ key, handed new = [parcel.encode key] := by
  obtain ⟨-, ⟨new, history, sort⟩, -⟩ :=
    Session.outcome_of_reachable Call.every_hands reachable possible
  refine ⟨new, history, fun bytes isHanded bounded => ?_, ?_⟩
  · obtain ⟨moment, isNew, frame⟩ := List.mem_filterMap.mp isHanded
    cases moment with
    | asked request =>
      obtain ⟨parcel, key, sends, rfl⟩ := sort _ isNew bytes frame
      refine ⟨parcel, sends, parcel.oneFrame key bounded, ?_⟩
      rw [parcel.validate_frame, sends.isOverlong]
    | _ => cases frame
  · rintro call parcel rfl sends opened free
    cases possible
    obtain ⟨front, key, played, one⟩ :=
      Call.handsOne sends opened free call s.history s.callers (.called call :: s.history)
    have same : front = new := List.append_cancel_right (played.symm.trans history)
    exact ⟨key, same ▸ one⟩

def openConnection : List Choice :=
  [.call (.connectAsync (.ofNonce [])), .answer Request.takenUp, .call .handshakeCompleted]

/-- A close with a reason, under the first key. -/
theorem frame_of_turn_close :
    ∃ s turn new parcel, Session.after openConnection (.ofConfig {} 0) = some s ∧
      s.turn? (.call (.sendClose .normal "bye" none)) = some turn ∧
      (turn.play s.client).history = new ++ turn.history ∧
      handed new = [[136, 133, 169, 167, 98, 29, 170, 79, 0, 100, 204]] ∧
      turn.call.Sends parcel ∧
      OneFrame parcel.frame [136, 133, 169, 167, 98, 29, 170, 79, 0, 100, 204] ∧
      parcel.frame.validate = .ok () := by
  have played : ((Session.after openConnection (.ofConfig {} 0)).bind fun s =>
      (s.turn? (.call (.sendClose .normal "bye" none))).map fun turn =>
        (turn.call, handed turn.history, handed (turn.play s.client).history)) =
      some (.sendClose .normal "bye" none, [],
        [[136, 133, 169, 167, 98, 29, 170, 79, 0, 100, 204]]) := by
    decide +kernel
  obtain ⟨s, made, played⟩ := Option.bind_eq_some_iff.mp played
  obtain ⟨turn, possible, told⟩ := Option.map_eq_some_iff.mp played
  simp only [Prod.mk.injEq] at told
  obtain ⟨call, before, now⟩ := told
  obtain ⟨new, history, legal, -⟩ := frame_of_turn (.after .start made) possible
  have handedNew : handed new = [[136, 133, 169, 167, 98, 29, 170, 79, 0, 100, 204]] := by
    rw [history, handed_append, before, List.append_nil] at now
    exact now
  obtain ⟨parcel, sends, oneFrame, valid⟩ :=
    legal _ (handedNew ▸ List.mem_singleton_self _) (by decide)
  refine ⟨s, turn, new, parcel, made, possible, history, handedNew, sends, oneFrame, ?_⟩
  rw [valid, call]
  rfl

/-- A ping of 126 bytes is handed over, though it breaks the rules. -/
theorem long_ping_is_handed_over :
    ∃ s turn bytes, Session.Reachable {} 0 s ∧ s.client.phase = .opened ∧
      s.turn? (.call (.send (.ping (List.replicate 126 0)) none)) = some turn ∧
      handed (turn.play s.client).history = [bytes] ∧
      OneFrame (.ping (List.replicate 126 0)) bytes ∧
      (Frame.ping (List.replicate 126 0)).validate = .error (.controlFrameTooLarge 126) := by
  let parcel := (Outgoing.ping (List.replicate 126 0)).parcel
  let key : MaskKey := ⟨169, 167, 98, 29⟩
  have played : ((Session.after openConnection (.ofConfig {} 0)).bind fun s =>
      (s.turn? (.call (.send (.ping (List.replicate 126 0)) none))).map fun turn =>
        (s.client.phase, handed (turn.play s.client).history)) =
      some (Phase.opened, [parcel.encode key]) := by
    decide +kernel
  have length : (parcel.encode key).length = 134 := by decide +kernel
  obtain ⟨s, made, played⟩ := Option.bind_eq_some_iff.mp played
  obtain ⟨turn, possible, told⟩ := Option.map_eq_some_iff.mp played
  simp only [Prod.mk.injEq] at told
  obtain ⟨opened, one⟩ := told
  have legal := parcel.oneFrame key (by omega)
  exact ⟨s, turn, parcel.encode key, .after .start made, opened, possible, one, legal,
    by decide +kernel⟩

end WebSocket
