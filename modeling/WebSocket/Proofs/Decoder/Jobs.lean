import WebSocket.Proofs.Decoder.Standstill
import WebSocket.Proofs.Frame.Shortest
import WebSocket.Proofs.Message.Refusal

/-!
# Whatever is done with a decoder

Bytes are fed to a decoder, and frames and events are asked for, in any order (`Job`). What it holds
are bytes that it was fed, and each fragment that it counts took two more for its header. So it
never holds more, nor counts more, than it was fed (`held_perform_le`).
-/

namespace WebSocket

theorem Frame.le_of_parse {bytes : Bytes} {frame : Frame} {used : Nat}
    (parsed : parse bytes = .ok (frame, used)) : 2 + frame.payload.length ≤ used := by
  rcases bytes with - | ⟨first, - | ⟨second, rest⟩⟩
  · cases parsed
  · cases parsed
  obtain ⟨length, -, -, total⟩ := length_of_parse parsed
  omega

/-! ### What is held -/

namespace Assembly

/-- The bytes of the message under way, and two for each of its fragments, which are the least that
a header takes. -/
def held (a : Assembly) : Nat := 2 * a.fragments + a.gathered.length

theorem held_push_le (a : Assembly) (frame : Frame) :
    (a.push frame).2.held ≤ a.held + (2 + frame.payload.length) := by
  have pushes := a.pushes frame
  generalize a.push frame = pushed at pushes ⊢
  cases pushes with
  | stray violation stranger => exact Nat.le_add_right _ _
  | limited kind e belongs ofLimit => exact Nat.le_add_right _ _
  | gathered kind belongs few fits =>
    simp only [held, List.length_append]
    omega
  | completed kind belongs few fits => exact Nat.zero_le _

end Assembly

namespace Decoder

def held (d : Decoder) : Nat := d.assembly.held + d.buffer.length

theorem buffered_le_held (d : Decoder) : d.buffer.length ≤ d.held := Nat.le_add_left _ _

@[simp] theorem held_feed (d : Decoder) (data : Bytes) :
    (d.feed data).held = d.held + data.length := by
  rw [held, feed_assembly, feed_buffer, List.length_append, ← Nat.add_assoc]
  rfl

theorem held_reset_le (d : Decoder) : d.reset.held ≤ d.held := Nat.zero_le _

theorem parse_of_nextFrame {d rest : Decoder} {frame : Frame}
    (taken : d.nextFrame = .ok (some (frame, rest))) :
    ∃ used, Frame.parse d.buffer = .ok (frame, used) ∧
      rest = { d with buffer := d.buffer.drop used } := by
  unfold nextFrame at taken
  repeat' split at taken
  all_goals cases taken
  exact ⟨_, ‹_›, rfl⟩

theorem held_of_nextFrame {d rest : Decoder} {frame : Frame}
    (taken : d.nextFrame = .ok (some (frame, rest))) :
    rest.held + (2 + frame.payload.length) ≤ d.held := by
  obtain ⟨used, parsed, rfl⟩ := parse_of_nextFrame taken
  have least := Frame.le_of_parse parsed
  have most := (Frame.bounds_of_parse parsed).2
  simp only [held, List.length_drop]
  omega

theorem held_accept_le (d : Decoder) (frame : Frame) :
    (d.accept frame).2.held ≤ d.held + (2 + frame.payload.length) := by
  unfold accept
  split
  · exact Nat.le_add_right _ _
  · split
    · exact Nat.le_add_right _ _
    · exact Nat.le_add_right _ _
    · exact Nat.le_add_right _ _
    all_goals
      have pushed := d.assembly.held_push_le frame
      simp only [held]
      omega

theorem held_nextEvent_le (d : Decoder) : d.nextEvent.2.held ≤ d.held := by
  fun_induction Decoder.nextEvent d with
  | case1 d e refused => exact Nat.le_refl _
  | case2 d missing => exact Nat.le_refl _
  | case3 d frame rest taken _ quiet ih =>
    exact (ih.trans (held_accept_le rest frame)).trans (held_of_nextFrame taken)
  | case4 d frame rest taken result loud =>
    exact (held_accept_le rest frame).trans (held_of_nextFrame taken)

theorem length_of_event {d rest : Decoder} {event : Event}
    (taken : d.nextEvent = (.ok (some event), rest)) :
    rest.buffer.length + 2 ≤ d.buffer.length := by
  fun_induction Decoder.nextEvent d with
  | case1 d e refused => cases taken
  | case2 d missing => cases taken
  | case3 d frame after first _ quiet ih =>
    have fewer := length_of_nextFrame first
    have found := ih taken
    rw [accept_buffer] at found
    omega
  | case4 d frame after first result loud =>
    have fewer := length_of_nextFrame first
    have same : after.buffer = rest.buffer := by
      rw [← accept_buffer after frame]
      exact congrArg (·.2.buffer) taken
    rw [← same]
    exact fewer

theorem held_drain_le (d : Decoder) : d.drain.decoder.held ≤ d.held := by
  induction d using drain_induction with
  | error d e rest h =>
    have least := held_nextEvent_le d
    rw [h] at least
    rwa [drain_of_error h]
  | none d rest h =>
    have least := held_nextEvent_le d
    rw [h] at least
    rwa [drain_of_none h]
  | some d event rest h ih =>
    have least := held_nextEvent_le d
    rw [h] at least
    rw [drain_of_some h]
    exact ih.trans least

/-! ### Jobs -/

/-- What may be done with a decoder. -/
inductive Job where
  | feed (data : Bytes)
  | nextFrame
  | nextEvent
  | drain
  | reset
  deriving DecidableEq, Repr

/-- The bytes that are fed. -/
def Job.fed : Job → Bytes
  | feed data => data
  | _ => []

/-- What comes of it. -/
inductive Reply where
  | done
  | frame (result : Except Error (Option Frame))
  | event (result : Except Error (Option Event))
  | events (events : List Event) (fault : Option Error)
  deriving DecidableEq, Repr

def perform (d : Decoder) : Job → Reply × Decoder
  | .feed data => (.done, d.feed data)
  | .nextFrame => (.frame d.pull.1, d.pull.2)
  | .nextEvent => (.event d.nextEvent.1, d.nextEvent.2)
  | .drain => (.events d.drain.events d.drain.fault, d.drain.decoder)
  | .reset => (.done, d.reset)

def performAll (d : Decoder) : List Job → List Reply × Decoder
  | [] => ([], d)
  | job :: later =>
    let rest := (d.perform job).2.performAll later
    ((d.perform job).1 :: rest.1, rest.2)

theorem held_perform_le (d : Decoder) (job : Job) :
    (d.perform job).2.held ≤ d.held + job.fed.length := by
  cases job with
  | feed data => exact (held_feed d data).le
  | nextFrame =>
    show d.pull.2.held ≤ d.held
    unfold pull
    rcases taken : d.nextFrame with e | - | ⟨frame, rest⟩
    · exact Nat.le_refl _
    · exact Nat.le_refl _
    · have less := held_of_nextFrame taken
      show rest.held ≤ d.held
      omega
  | nextEvent => exact held_nextEvent_le d
  | drain => exact held_drain_le d
  | reset => exact held_reset_le d

end Decoder

end WebSocket
