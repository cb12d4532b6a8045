import WebSocket.Proofs.Decoder.Deliveries

/-!
# Reading up to a close

A client reads no further than to the first close (`Decoder.drainToClose`). What it reads is the
front of what `Decoder.drain` gives.
-/

namespace WebSocket

def firstClose? : List Event → Option (Option CloseBody)
  | [] => none
  | .close body :: _ => some body
  | .message _ :: later | .ping _ :: later | .pong _ :: later => firstClose? later

theorem firstClose?_cons {event : Event} (quiet : event.isClose = false) (later : List Event) :
    firstClose? (event :: later) = firstClose? later := by
  cases event with
  | close body => cases quiet
  | message _ => rfl
  | ping _ => rfl
  | pong _ => rfl

theorem firstClose?_eq_none_cons {event : Event} {later : List Event}
    (quiet : firstClose? (event :: later) = none) :
    event.isClose = false ∧ firstClose? later = none := by
  cases event with
  | close body => cases quiet
  | message _ => exact ⟨rfl, quiet⟩
  | ping _ => exact ⟨rfl, quiet⟩
  | pong _ => exact ⟨rfl, quiet⟩

theorem firstClose?_append (events later : List Event) :
    firstClose? (events ++ later) = (firstClose? events).or (firstClose? later) := by
  induction events with
  | nil => rfl
  | cons event events ih =>
    cases event with
    | close body => rfl
    | message _ => exact ih
    | ping _ => exact ih
    | pong _ => exact ih

theorem any_isClose (events : List Event) :
    events.any Event.isClose = (firstClose? events).isSome := by
  induction events with
  | nil => rfl
  | cons event events ih =>
    cases event with
    | close body => rfl
    | message _ => exact ih
    | ping _ => exact ih
    | pong _ => exact ih

namespace Decoder

theorem drainToClose_of_error {d rest : Decoder} {e : Error} (h : d.nextEvent = (.error e, rest)) :
    d.drainToClose = ⟨[], some e, rest⟩ := drainFrom_of_error h []

theorem drainToClose_of_none {d rest : Decoder} (h : d.nextEvent = (.ok none, rest)) :
    d.drainToClose = ⟨[], none, rest⟩ := drainFrom_of_none h []

theorem drainToClose_of_close {d rest : Decoder} {event : Event}
    (h : d.nextEvent = (.ok (some event), rest)) (close : event.isClose = true) :
    d.drainToClose = ⟨[event], none, rest⟩ := drainFrom_of_last h close []

theorem drainToClose_of_quiet {d rest : Decoder} {event : Event}
    (h : d.nextEvent = (.ok (some event), rest)) (quiet : event.isClose = false) :
    d.drainToClose = rest.drainToClose.after [event] := drainFrom_cons h quiet

theorem drainToClose_eq_drain {d : Decoder} (quiet : firstClose? d.drain.events = none) :
    d.drainToClose = d.drain := by
  induction d using drain_induction with
  | error d e rest h => rw [drainToClose_of_error h, drain_of_error h]
  | none d rest h => rw [drainToClose_of_none h, drain_of_none h]
  | some d event rest h ih =>
    rw [drain_of_some h] at quiet ⊢
    obtain ⟨notClose, later⟩ := firstClose?_eq_none_cons quiet
    rw [drainToClose_of_quiet h notClose, ih later]

/-- Where there is a close it is the last thing read, and nothing fails. -/
theorem drainToClose_of_firstClose {d : Decoder} {body : Option CloseBody}
    (close : firstClose? d.drain.events = some body) :
    ∃ before, d.drainToClose.events = before ++ [.close body] ∧ firstClose? before = none ∧
      d.drainToClose.fault = none := by
  induction d using drain_induction with
  | error d e rest h => simp [drain_of_error h, firstClose?] at close
  | none d rest h => simp [drain_of_none h, firstClose?] at close
  | some d event rest h ih =>
    rw [drain_of_some h] at close
    cases isClose : event.isClose with
    | true =>
      rw [drainToClose_of_close h isClose]
      cases event with
      | close body' =>
        cases close
        exact ⟨[], rfl, rfl, rfl⟩
      | message _ => cases isClose
      | ping _ => cases isClose
      | pong _ => cases isClose
    | false =>
      have later : firstClose? rest.drain.events = some body :=
        (firstClose?_cons isClose rest.drain.events).symm.trans close
      obtain ⟨before, events, quiet, sound⟩ := ih later
      rw [drainToClose_of_quiet h isClose]
      refine ⟨event :: before, ?_, ?_, sound⟩
      · exact congrArg (event :: ·) events
      · rw [firstClose?_cons isClose, quiet]

end Decoder

end WebSocket
