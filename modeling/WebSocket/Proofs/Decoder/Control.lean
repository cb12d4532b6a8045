import WebSocket.Client

/-!
# Control frames that are read

A control frame is checked before it is acted on. So whatever arrives, the payload of a ping or
pong that is read fits a control frame again (`Client.fits_of_absorb`), and a close that is read has
a status that may be sent (`Client.sendable_of_absorb`).
-/

namespace WebSocket

/-- What a ping or pong carries fits a control frame. -/
def Event.Fits : Event → Prop
  | ping payload | pong payload => payload.length ≤ maxControlPayload
  | message _ | close _ => True

/-- The status of a close, if it has one, may be sent. -/
def Event.Sendable : Event → Prop
  | close (some body) => body.code.isAllowed
  | message _ | ping _ | pong _ | close none => True

theorem CloseBody.allowed_of_parse {payload : Bytes} {body : CloseBody}
    (parsed : CloseBody.parse payload = .ok (some body)) : body.code.isAllowed := by
  unfold CloseBody.parse at parsed
  split at parsed
  · cases parsed
  · cases parsed
  · rename_i high low reason
    by_cases allowed : (CloseCode.ofStatus (Bytes.toUInt16 high low)).isAllowed
    · simp only [allowed, Bool.not_true, Bool.false_eq_true, if_false] at parsed
      split at parsed <;> cases parsed
      exact allowed
    · simp [allowed] at parsed

theorem Frame.short_of_validate {frame : Frame} (valid : frame.validate = .ok ())
    (control : frame.opcode.isControl) : frame.payload.length ≤ maxControlPayload := by
  unfold validate at valid
  simp only [control, if_true] at valid
  repeat' split at valid
  all_goals cases valid
  exact Nat.not_lt.mp ‹_›

/-- The event that a frame by itself is read as, or the message that it completes. -/
inductive Frame.ReadAs (frame : Frame) : Event → Prop
  | ping (opcode : frame.opcode = .ping) : ReadAs frame (.ping frame.payload)
  | pong (opcode : frame.opcode = .pong) : ReadAs frame (.pong frame.payload)
  | close {body : Option CloseBody} (parsed : CloseBody.parse frame.payload = .ok body) :
    ReadAs frame (.close body)
  | message (message : Message) : ReadAs frame (.message message)

namespace Decoder

theorem readAs_of_accept {d : Decoder} {frame : Frame} {event : Event}
    (accepted : (d.accept frame).1 = .ok (some event)) :
    frame.validate = .ok () ∧ frame.ReadAs event := by
  unfold accept at accepted
  split at accepted
  · cases accepted
  rename_i valid
  refine ⟨valid, ?_⟩
  split at accepted
  · rename_i opcode
    cases accepted
    exact .ping opcode
  · rename_i opcode
    cases accepted
    exact .pong opcode
  · cases parsed : CloseBody.parse frame.payload with
    | error e => simp [parsed, Except.map] at accepted
    | ok body =>
      obtain rfl : Event.close body = event := by simpa [parsed, Except.map] using accepted
      exact .close parsed
  all_goals
    simp only at accepted
    cases pushed : (d.assembly.push frame).1 with
    | error e => simp [pushed, Except.map] at accepted
    | ok whole =>
      cases whole with
      | none => simp [pushed, Except.map] at accepted
      | some message =>
        obtain rfl : Event.message message = event := by
          simpa [pushed, Except.map] using accepted
        exact .message message

theorem fits_of_accept {d : Decoder} {frame : Frame} {event : Event}
    (accepted : (d.accept frame).1 = .ok (some event)) : event.Fits := by
  obtain ⟨valid, readAs⟩ := readAs_of_accept accepted
  cases readAs with
  | ping opcode => exact Frame.short_of_validate valid (by rw [opcode]; rfl)
  | pong opcode => exact Frame.short_of_validate valid (by rw [opcode]; rfl)
  | close parsed => trivial
  | message message => trivial

theorem sendable_of_accept {d : Decoder} {frame : Frame} {event : Event}
    (accepted : (d.accept frame).1 = .ok (some event)) : event.Sendable := by
  obtain ⟨valid, readAs⟩ := readAs_of_accept accepted
  cases readAs with
  | @close body parsed =>
    cases body with
    | none => trivial
    | some body => exact CloseBody.allowed_of_parse parsed
  | ping opcode | pong opcode | message message => trivial

/-! ### What holds of all events

It is enough that it holds of those that a frame is accepted as. -/

section

variable {holds : Event → Prop}
  (accepts : ∀ {d : Decoder} {frame : Frame} {event : Event},
    (d.accept frame).1 = .ok (some event) → holds event)

include accepts

theorem holds_of_nextEvent {d : Decoder} {event : Event}
    (next : d.nextEvent.1 = .ok (some event)) : holds event := by
  fun_induction nextEvent d with
  | case1 => cases next
  | case2 => cases next
  | case3 d frame rest taken _ quiet ih => exact ih next
  | case4 d frame rest taken result loud => exact accepts next

theorem holds_of_drainFrom {isLast : Event → Bool} {events : List Event} {d : Decoder}
    (earlier : ∀ event ∈ events, holds event) :
    ∀ event ∈ (drainFrom isLast events d).events, holds event := by
  have more : ∀ {event : Event} {rest d : Decoder} {events : List Event},
      d.nextEvent = (.ok (some event), rest) → (∀ event ∈ events, holds event) →
      ∀ other ∈ event :: events, holds other := by
    intro event rest d events taken earlier other isIn
    rcases List.mem_cons.mp isIn with rfl | isEarlier
    · exact holds_of_nextEvent accepts (congrArg Prod.fst taken)
    · exact earlier other isEarlier
  fun_induction drainFrom isLast events d with
  | case1 events d e rest taken => simpa using earlier
  | case2 events d rest taken => simpa using earlier
  | case3 events d event rest taken _ last =>
    intro other isIn
    exact more taken earlier other (List.mem_reverse.mp isIn)
  | case4 events d event rest taken _ notLast ih => exact ih (more taken earlier)

end

end Decoder

namespace Client

theorem holds_of_absorb {holds : Event → Prop}
    (accepts : ∀ {d : Decoder} {frame : Frame} {event : Event},
      (d.accept frame).1 = .ok (some event) → holds event)
    (data : Bytes) (c : Client) : ∀ event ∈ (c.absorb data).1.1, holds event := by
  unfold absorb
  split
  · simp
  · exact Decoder.holds_of_drainFrom accepts (by simp)

theorem fits_of_absorb (data : Bytes) (c : Client) :
    ∀ event ∈ (c.absorb data).1.1, event.Fits :=
  holds_of_absorb Decoder.fits_of_accept data c

theorem sendable_of_absorb (data : Bytes) (c : Client) :
    ∀ event ∈ (c.absorb data).1.1, event.Sendable :=
  holds_of_absorb Decoder.sendable_of_accept data c

end Client

end WebSocket
