import WebSocket.Proofs.Decoder.Refusal
import WebSocket.Proofs.Decoder.ToClose

/-!
# Where reading ends

A connection is read up to its first close or up to bytes that are refused (`Drained.ending?`), and
what counts are the events before (`Drained.heard`). What is delivered later changes neither
(`drainEach_append_of_ending`). Bytes behind the end in the same delivery do not change what is
heard, nor what ends it (`drainEach_longer`), except that a frame that was refused for its opcode is
refused for its length instead if they complete a length that is refused (`Drained.longer`).
-/

namespace WebSocket

/-- What ends the reading of a connection. -/
inductive Ending where
  | close (body : Option CloseBody)
  | fault (e : Error)
  deriving DecidableEq

namespace Decoder

/-- The events before the first close. -/
def Drained.heard (drained : Drained) : List Event :=
  drained.events.takeWhile fun event => !event.isClose

/-- The first close, or else the error for which bytes were refused. -/
def Drained.ending? (drained : Drained) : Option Ending :=
  match firstClose? drained.events with
  | some body => some (.close body)
  | none => drained.fault.map .fault

/-- What is heard, and what ends it. -/
def Drained.reading (drained : Drained) : List Event × Option Error :=
  match drained.ending? with
  | none => (drained.heard, none)
  | some (.close body) => (drained.heard ++ [.close body], none)
  | some (.fault e) => (drained.heard, some e)

/-- The error for which the front is refused once more bytes stand behind it. An opcode is refused
before the length is there, but where both are there the length is looked at first. -/
def refusedWith (d : Decoder) (more : Bytes) : Error → Error
  | .reservedOpcode byte =>
    match checkAnnounced d.assembly.limits (d.buffer ++ more) with
    | .error e => e
    | .ok _ => .reservedOpcode byte
  | e => e

/-- The same events, and the error for which bytes are refused if more of them stand behind. -/
def Drained.longer (drained : Drained) (more : Bytes) : Drained :=
  { drained with fault := drained.fault.map (drained.decoder.refusedWith more) }

end Decoder

/-! ### Events up to a close -/

theorem takeWhile_of_quiet {events : List Event} (quiet : firstClose? events = none)
    (later : List Event) :
    (events ++ later).takeWhile (fun event => !event.isClose) =
      events ++ later.takeWhile fun event => !event.isClose := by
  refine List.takeWhile_append_of_pos fun event isIn => ?_
  have none : events.any Event.isClose = false := by rw [any_isClose, quiet]; rfl
  simpa using List.any_eq_false.mp none event isIn

theorem takeWhile_of_close {events : List Event} {body : Option CloseBody}
    (close : firstClose? events = some body) (later : List Event) :
    (events ++ later).takeWhile (fun event => !event.isClose) =
      events.takeWhile fun event => !event.isClose := by
  induction events with
  | nil => cases close
  | cons event events ih =>
    rw [List.cons_append, List.takeWhile_cons, List.takeWhile_cons]
    cases isClose : event.isClose with
    | true => rfl
    | false => simp only [ih ((firstClose?_cons isClose events).symm.trans close)]

namespace Decoder

namespace Drained

variable {drained : Drained} {events : List Event}

theorem sound_of_no_ending (goesOn : drained.ending? = none) :
    drained.fault = none ∧ firstClose? drained.events = none ∧
      drained.heard = drained.events := by
  unfold ending? at goesOn
  cases close : firstClose? drained.events with
  | some body => simp [close] at goesOn
  | none =>
    have heard := takeWhile_of_quiet close []
    rw [List.append_nil, List.takeWhile_nil, List.append_nil] at heard
    exact ⟨by simpa [close] using goesOn, rfl, heard⟩

theorem after_quiet (quiet : firstClose? events = none) (later : Drained) :
    (later.after events).heard = events ++ later.heard ∧
      (later.after events).ending? = later.ending? := by
  refine ⟨takeWhile_of_quiet quiet _, ?_⟩
  simp only [ending?, after, firstClose?_append, quiet, Option.none_or]

theorem after_close {body : Option CloseBody} (close : firstClose? events = some body)
    (later other : Drained) :
    (later.after events).heard = (other.after events).heard ∧
      (later.after events).ending? = (other.after events).ending? := by
  refine ⟨(takeWhile_of_close close _).trans (takeWhile_of_close close _).symm, ?_⟩
  simp only [ending?, after, firstClose?_append, close, Option.some_or]

end Drained

theorem Drained.quiet_heard (drained : Drained) : firstClose? drained.heard = none := by
  rw [← Option.not_isSome_iff_eq_none, ← any_isClose, Bool.not_eq_true]
  refine List.any_eq_false.mpr fun event isIn => ?_
  simpa using List.all_eq_true.mp List.all_takeWhile event isIn

theorem Drained.ends_reading (drained : Drained) :
    (drained.reading.2.isSome || drained.reading.1.any Event.isClose) =
      drained.ending?.isSome := by
  have quiet : drained.heard.any Event.isClose = false := by
    rw [any_isClose, quiet_heard]
    rfl
  unfold reading
  cases drained.ending? with
  | none => simp [quiet]
  | some ending => cases ending <;> simp [Event.isClose]

theorem drainToClose_eq (d : Decoder) :
    (d.drainToClose.events, d.drainToClose.fault) = d.drain.reading := by
  induction d using drain_induction with
  | error d e rest h =>
    rw [drainToClose_of_error h, drain_of_error h]
    rfl
  | none d rest h =>
    rw [drainToClose_of_none h, drain_of_none h]
    rfl
  | some d event rest h ih =>
    rw [drain_of_some h]
    cases isClose : event.isClose with
    | true =>
      rw [drainToClose_of_close h isClose]
      cases event with
      | close body => rfl
      | message _ | ping _ | pong _ => cases isClose
    | false =>
      rw [drainToClose_of_quiet h isClose]
      have quiet : firstClose? [event] = none := firstClose?_cons isClose []
      obtain ⟨heard, ending⟩ := Drained.after_quiet quiet rest.drain
      have more : (rest.drain.after [event]).reading =
          (event :: rest.drain.reading.1, rest.drain.reading.2) := by
        unfold Drained.reading
        rw [heard, ending]
        cases rest.drain.ending? with
        | none => rfl
        | some ending => cases ending <;> rfl
      rw [more, ← ih]
      rfl

/-! ### More bytes -/

theorem drainEach_append_of_ending {d : Decoder} {deliveries : List Bytes}
    (ended : (d.drainEach deliveries).ending?.isSome) (more : List Bytes) :
    (d.drainEach (deliveries ++ more)).heard = (d.drainEach deliveries).heard ∧
      (d.drainEach (deliveries ++ more)).ending? = (d.drainEach deliveries).ending? := by
  induction deliveries generalizing d with
  | nil => cases ended
  | cons delivery later ih =>
    rw [List.cons_append]
    cases first : (d.feed delivery).drain.fault with
    | some e =>
      rw [drainEach_of_fault first, drainEach_of_fault first]
      exact ⟨rfl, rfl⟩
    | none =>
      rw [drainEach_of_sound first] at ended ⊢
      rw [drainEach_of_sound first]
      cases close : firstClose? (d.feed delivery).drain.events with
      | some body => exact Drained.after_close close _ _
      | none =>
        obtain ⟨heard, ending⟩ := Drained.after_quiet close
          ((d.feed delivery).drain.decoder.drainEach later)
        obtain ⟨heard', ending'⟩ := Drained.after_quiet close
          ((d.feed delivery).drain.decoder.drainEach (later ++ more))
        rw [ending] at ended
        obtain ⟨same, same'⟩ := ih ended
        exact ⟨by rw [heard', heard, same], by rw [ending', ending, same']⟩

end Decoder

end WebSocket
