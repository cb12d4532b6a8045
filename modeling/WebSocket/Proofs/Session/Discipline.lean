import WebSocket.Proofs.Session.Assurance
import WebSocket.Proofs.Session.Course
import WebSocket.Proofs.Session.Signals

/-!
# The order of outgoing frames

Whoever calls a client, and whenever, its frames are handed over in order: `orderly_of_reachable`.
The negotiation decides that a close is due, and the bytes leave through the gate later. In between
others get no control, for the gate is free or the call waits for ever. So the invariant
(`Disciplined`) may be broken from the decision to the frame (`Due`), but never while others have
control.
-/

namespace WebSocket

open WebSocket.Action

/-- The signals so far, and what the phase says about what may follow. -/
structure Disciplined (c : Client) (h : List Moment) : Prop where
  trace : ∃ outlook, Trace outlook (signals h) ∧ (c.phase = .opened → outlook = .flowing) ∧
    (c.phase = .connecting → outlook = .fresh)

/-- A close is due: it was decided on while the connection was open. -/
structure Due (c : Client) (h : List Moment) : Prop where
  flowing : Trace .flowing (signals h)
  closing : c.phase.isClosing

/-- Whenever others have control the signals fit the phase. No call leaves the gate in another
state than it found it. -/
def discipline : Duty where
  holds := Disciplined
  keeps c _ c' _ := c'.gate.isHeld = c.gate.isHeld
  refl _ _ := rfl
  trans first later := later.trans first

/-! ### Strokes -/

theorem Disciplined.of_same {c c' : Client} {h h' : List Moment} (disciplined : Disciplined c h)
    (phase : c'.phase = c.phase) (same : signals h' = signals h) : Disciplined c' h' := by
  obtain ⟨outlook, trace, opened, connecting⟩ := disciplined.trace
  refine ⟨outlook, ?_, ?_, ?_⟩
  · rw [same]
    exact trace
  · rw [phase]
    exact opened
  · rw [phase]
    exact connecting

theorem Disciplined.shut {c c' : Client} {h : List Moment} (disciplined : Disciplined c h)
    (notOpen : c'.phase ≠ .opened) (notConnecting : c'.phase ≠ .connecting) :
    Disciplined c' (.changed c c' :: h) := by
  obtain ⟨outlook, trace, -, -⟩ := disciplined.trace
  have quiet : Phase.signal? c.phase c'.phase = none := by
    generalize c.phase = p at *
    generalize c'.phase = q at *
    cases q with
    | opened => exact absurd rfl notOpen
    | connecting => exact absurd rfl notConnecting
    | _ => cases p <;> rfl
  refine ⟨outlook, ?_, fun opened => absurd opened notOpen,
    fun connecting => absurd connecting notConnecting⟩
  simp only [signals, Moment.signal?, quiet, Option.toList_none, List.append_nil]
  exact trace

theorem Disciplined.stroke {c c' : Client} {h : List Moment} (disciplined : Disciplined c h)
    (stroke : Stroke c c') : Disciplined c' (.changed c c' :: h) := by
  obtain ⟨outlook, trace, opened, connecting⟩ := disciplined.trace
  have follows := stroke.phase
  generalize before : c.phase = p at follows opened connecting
  generalize after : c'.phase = q at follows
  have signal : signals (.changed c c' :: h) = signals h ++ (Phase.signal? p q).toList := by
    simp only [signals, Moment.signal?, before, after]
  cases follows with
  | stays =>
    have same : c'.phase = c.phase := after.trans before.symm
    exact disciplined.of_same same (signals_changed_same same h)
  | begins =>
    refine ⟨.fresh, ?_, by simp [after], fun _ => rfl⟩
    rw [signal]
    exact .begun trace
  | opens =>
    cases connecting rfl
    refine ⟨.flowing, ?_, fun _ => rfl, by simp [after]⟩
    rw [signal]
    exact .opened trace
  | aborts | closes | answers | ends =>
    exact disciplined.shut (by simp [after]) (by simp [after])

theorem Disciplined.gateStroke {c c' : Client} {h : List Moment} (disciplined : Disciplined c h)
    (stroke : GateStroke c c') : Disciplined c' (.changed c c' :: h) := by
  have same : c'.phase = c.phase := by
    rw [stroke.eq]
    rfl
  exact disciplined.of_same same (signals_changed_same same h)

abbrev Action.Tame {α : Type} (x : Action α) : Prop := x.Does discipline Disciplined

theorem tame_of_plain {α : Type} {x : Action α} (plain : x.Plain) : x.Tame := by
  refine does_of_every ⟨?_, ?_, ?_⟩ plain
  · intro c c' h disciplined stroke
    exact ⟨disciplined.stroke stroke, congrArg Gate.isHeld stroke.untouched.gate⟩
  · intro c h r disciplined other
    exact ⟨disciplined.of_same rfl (signals_asked_other other h), rfl⟩
  · intro c h r answer disciplined _
    exact ⟨disciplined.of_same rfl (signals_answered r answer h), rfl⟩

/-! ### Through the gate -/

variable {α : Type}

/-- If the parcel is consented to, its frame may follow. -/
structure Cleared (consent : Client → Except Error Unit) (parcel : Parcel) (c : Client)
    (h : List Moment) : Prop where
  disciplined : Disciplined c h
  flowing : consent c = .ok () → Trace .flowing (signals h)
  fits : consent c = .ok () →
    c.phase = .opened ∧ parcel.opcode.isMessage ∨ c.phase.isClosing ∧ parcel.opcode = .close

theorem cleared_message {parcel : Parcel} (isMessage : parcel.opcode.isMessage) {c : Client}
    {h : List Moment} (disciplined : Disciplined c h) :
    Cleared Client.checkOpen parcel c h := by
  have isOpen : c.checkOpen = .ok () → c.phase = .opened := by
    intro granted
    unfold Client.checkOpen at granted
    cases phase : c.phase with
    | opened => rfl
    | _ => simp [phase, Phase.canSend] at granted
  refine ⟨disciplined, ?_, fun granted => .inl ⟨isOpen granted, isMessage⟩⟩
  intro granted
  obtain ⟨outlook, trace, opened, -⟩ := disciplined.trace
  cases opened (isOpen granted)
  exact trace

theorem Due.disciplined {c : Client} {h : List Moment} (due : Due c h) : Disciplined c h := by
  refine ⟨.flowing, due.flowing, fun _ => rfl, fun connecting => ?_⟩
  have closing := due.closing
  rw [connecting] at closing
  cases closing

theorem cleared_close {status : UInt16} {reason : Bytes} {c : Client} {h : List Moment}
    (due : Due c h) : Cleared Client.always (closeParcel status reason) c h :=
  ⟨due.disciplined, fun _ => due.flowing, fun _ => .inr ⟨due.closing, rfl⟩⟩

theorem Cleared.look {consent : Client → Except Error Unit} {parcel : Parcel} {c : Client}
    {h : List Moment} (cleared : Cleared consent parcel c h) :
    Cleared consent parcel c (.changed c c :: h) := by
  have same := signals_changed_same (c := c) rfl h
  refine ⟨cleared.disciplined.of_same rfl same, fun granted => ?_, cleared.fits⟩
  rw [same]
  exact cleared.flowing granted

theorem Cleared.handed {consent : Client → Except Error Unit} {parcel : Parcel} {c c' : Client}
    {h h' : List Moment} (cleared : Cleared consent parcel c h) (granted : consent c = .ok ())
    (phase : c'.phase = c.phase) (same : signals h' = signals h) {r : Request} {key : MaskKey}
    (frame : r.frame? = some (parcel.encode key)) : Disciplined c' (.asked r :: h') := by
  have flowing := cleared.flowing granted
  have asked : signals (.asked r :: h') = signals h ++ [.frame (some parcel.opcode)] := by
    rw [signals_asked_frame frame, same]
  rcases cleared.fits granted with ⟨opened, isMessage⟩ | ⟨closing, isClose⟩
  · refine ⟨.flowing, ?_, fun _ => rfl, ?_⟩
    · rw [asked]
      exact .message flowing isMessage
    · simp [phase, opened]
  · refine ⟨.ended, ?_, ?_, ?_⟩
    · rw [asked, isClose]
      exact .close flowing
    · intro opened
      simp [phase.symm.trans opened, Phase.isClosing] at closing
    · intro connecting
      simp [phase.symm.trans connecting, Phase.isClosing] at closing

theorem does_throughGate {consent : Client → Except Error Unit} {parcel : Parcel}
    {transmit : Bytes → Action α} (handsOver : HandsOver transmit) :
    (Client.throughGate consent parcel transmit).Does discipline (Cleared consent parcel) := by
  intro c h cleared
  refine assures_throughGate handsOver ?_ (fun _ _ => ⟨cleared.look.disciplined, rfl⟩) ?_
  · exact fun held => ⟨cleared.disciplined, fun _ _ kept => kept.trans held⟩
  · intro held granted r key masks frame c₁
    have phase : c₁.phase = c.phase := rfl
    refine ⟨cleared.handed granted phase (signals_changed_same phase h) frame, ?_⟩
    intro answer c' h' disciplined _ _
    have answered := disciplined.of_same rfl (signals_answered r answer h')
    exact ⟨answered.gateStroke .leaveGate, held.symm⟩

end WebSocket
