import WebSocket.Close.Body
import WebSocket.Config
import WebSocket.Frame.Parse
import WebSocket.Message.Assembly

/-!
# From bytes to events

Bytes arrive in pieces that have nothing to do with frames. `Decoder` keeps the bytes that make no
whole frame yet and the message under way. `Decoder.nextFrame` takes a frame off the front,
`Decoder.nextEvent` takes frames until one completes an event, and `Decoder.drain` takes every
event there is. A refused header leaves the decoder as it was; a frame refused later is gone.
-/

namespace WebSocket

/-- What a decoder makes of the bytes (`Inbound`). -/
inductive Event where
  | message (message : Message)
  | ping (payload : Bytes)
  | pong (payload : Bytes)
  | close (body : Option CloseBody)
  deriving DecidableEq, Repr

def Event.isClose : Event → Bool
  | close _ => true
  | _ => false

/-- The state of a `FrameDecoder`. -/
structure Decoder where
  acceptMasked : Bool
  /-- The message under way, with the limits on what may arrive. -/
  assembly : Assembly
  buffer : Bytes := []
  deriving DecidableEq, Repr

namespace Decoder

def ofConfig (config : Config) : Decoder :=
  { acceptMasked := config.acceptMasked, assembly := { limits := config.limits } }

def feed (d : Decoder) (data : Bytes) : Decoder := { d with buffer := d.buffer ++ data }

def buffered (d : Decoder) : Nat := d.buffer.length

def isAssembling (d : Decoder) : Bool := d.assembly.isAssembling

def reset (d : Decoder) : Decoder := { d with buffer := [], assembly := d.assembly.reset }

/-! ### Frames -/

/-- The limit in `next_frame`: a frame is refused as soon as its announced length is too large. -/
def checkAnnounced (limits : Limits) (bytes : Bytes) : Except Error Unit :=
  match Frame.announcedLength bytes with
  | .error e => .error e
  | .ok none => .ok ()
  | .ok (some (length, _)) => limits.checkFrameSize length

/-- Takes a frame off the front (`next_frame`); `none` if it is not all there. -/
def nextFrame (d : Decoder) : Except Error (Option (Frame × Decoder)) :=
  match d.buffer with
  | _ :: second :: _ =>
    if Frame.isMasked second && !d.acceptMasked then .error .maskedServerFrame
    else
      match checkAnnounced d.assembly.limits d.buffer with
      | .error e => .error e
      | .ok _ =>
        match Frame.parse d.buffer with
        | .ok (frame, used) => .ok (some (frame, { d with buffer := d.buffer.drop used }))
        | .error (.incompleteFrame _) => .ok none
        | .error e => .error e
  | _ => .ok none

theorem length_of_nextFrame {d rest : Decoder} {frame : Frame}
    (h : d.nextFrame = .ok (some (frame, rest))) : rest.buffer.length + 2 ≤ d.buffer.length := by
  unfold nextFrame at h
  split at h
  · split at h
    · cases h
    · split at h
      · cases h
      · split at h
        · rename_i parsed
          have bounds := Frame.bounds_of_parse parsed
          cases h
          simp only [List.length_drop]
          omega
        · cases h
        · cases h
  · cases h

/-! ### Events -/

/-- What `next_event` makes of a frame that it took. -/
def accept (d : Decoder) (frame : Frame) : Except Error (Option Event) × Decoder :=
  match frame.validate with
  | .error e => (.error e, d)
  | .ok _ =>
    match frame.opcode with
    | .ping => (.ok (some (.ping frame.payload)), d)
    | .pong => (.ok (some (.pong frame.payload)), d)
    | .close => ((CloseBody.parse frame.payload).map (some ∘ .close), d)
    | .text | .binary | .continuation =>
      let (result, assembly) := d.assembly.push frame
      (result.map (Option.map .message), { d with assembly })

@[simp] theorem accept_buffer (d : Decoder) (frame : Frame) :
    (d.accept frame).2.buffer = d.buffer := by
  unfold accept
  split
  · rfl
  · split <;> rfl

/-- Takes frames until one completes an event (`next_event`); `none` if more bytes are needed. -/
def nextEvent (d : Decoder) : Except Error (Option Event) × Decoder :=
  match taken : d.nextFrame with
  | .error e => (.error e, d)
  | .ok none => (.ok none, d)
  | .ok (some (frame, rest)) =>
    have := length_of_nextFrame taken
    match (rest.accept frame).1 with
    | .ok none => nextEvent (rest.accept frame).2
    | result => (result, (rest.accept frame).2)
termination_by d.buffer.length
decreasing_by simp only [accept_buffer]; omega

theorem length_of_nextEvent {d : Decoder} {event : Event}
    (h : d.nextEvent.1 = .ok (some event)) : d.nextEvent.2.buffer.length < d.buffer.length := by
  fun_induction nextEvent d with
  | case1 => simp at h
  | case2 => simp at h
  | case3 d frame rest taken _ quiet ih =>
    have := ih h
    simp only [accept_buffer] at this
    omega
  | case4 =>
    simp only [accept_buffer]
    omega

/-- What a decoder gave before it needed more bytes or failed. -/
structure Drained where
  events : List Event
  fault : Option Error
  decoder : Decoder
  deriving DecidableEq, Repr

/-- Takes events until one is the last, more bytes are needed or the bytes are refused. `events`
holds those taken before, last one first. -/
def drainFrom (isLast : Event → Bool) (events : List Event) (d : Decoder) : Drained :=
  match taken : d.nextEvent with
  | (.error e, rest) => ⟨events.reverse, some e, rest⟩
  | (.ok none, rest) => ⟨events.reverse, none, rest⟩
  | (.ok (some event), rest) =>
    have : rest.buffer.length < d.buffer.length := by
      simpa only [taken] using @length_of_nextEvent d event (by rw [taken])
    if isLast event then ⟨(event :: events).reverse, none, rest⟩
    else drainFrom isLast (event :: events) rest
termination_by d.buffer.length

def drain (d : Decoder) : Drained := drainFrom (fun _ => false) [] d

/-- The loop in `on_received`: takes every event up to a close, after which nothing counts. -/
def drainToClose (d : Decoder) : Drained := drainFrom Event.isClose [] d

/-- Adds the bytes of one delivery and takes every event they complete (`decode`). Events before a
failure are lost. -/
def decode (d : Decoder) (data : Bytes) : Except Error (List Event) × Decoder :=
  let drained := (d.feed data).drain
  match drained.fault with
  | some e => (.error e, drained.decoder)
  | none => (.ok drained.events, drained.decoder)

end Decoder

end WebSocket
