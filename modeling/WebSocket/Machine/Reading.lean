import WebSocket.Decoder
import WebSocket.Machine

/-!
# Reading on a machine

Frames, bodies of close frames and events, read from a buffer by position, with every sum and
difference computed in words, step by step as `announced_len`, `parse_header`, `parse`,
`next_frame`, `push` and `next_event` do it. Wherever nothing traps, the answers are those of
`Frame.parse`, `CloseBody.parse`, `Decoder.nextFrame` and `Decoder.nextEvent`.
-/

namespace WebSocket.Machine

/-! ### Frames -/

def announcedLength (bytes : Bytes) : Machine (Option (Nat × Nat)) := do
  let some second := bytes[1]? | return none
  let short := (second &&& 0x7F).toNat
  if short ≤ 125 then
    return some (short, 2)
  else if short = 126 then
    let some field := range? bytes 2 4 | return none
    return some (Bytes.toNat [← byteAt field 0, ← byteAt field 1], 4)
  else
    let some field := range? bytes 2 10 | return none
    let length := Bytes.toNat [← byteAt field 0, ← byteAt field 1, ← byteAt field 2,
      ← byteAt field 3, ← byteAt field 4, ← byteAt field 5, ← byteAt field 6, ← byteAt field 7]
    if length >>> 63 ≠ 0 then
      throw (.lengthOverflow length)
    return some (length, 10)

def keyAt (bytes : Bytes) (position : Nat) : Machine MaskKey := do
  return ⟨← byteAt bytes position, ← byteAt bytes (← add position 1),
    ← byteAt bytes (← add position 2), ← byteAt bytes (← add position 3)⟩

def header (bytes : Bytes) : Machine Frame.Header := do
  if bytes.length < 2 then
    throw (.incompleteFrame (← sub 2 bytes.length))
  let first ← byteAt bytes 0
  let second ← byteAt bytes 1
  let opcode ← settle (Opcode.decode (first &&& 0x0F))
  let some (announced, lengthEnd) ← announcedLength bytes
    | let needed := if second &&& 0x7F = 126 then 4 else 10
      throw (.incompleteFrame (← sub needed bytes.length))
  -- The length is read as 64 bits, whatever the width of a word.
  let some payloadLength := word? announced | throw (.lengthOverflow announced)
  let size ← if Frame.isMasked second then add lengthEnd 4 else pure lengthEnd
  if bytes.length < size then
    throw (.incompleteFrame (← sub size bytes.length))
  let mask ← if Frame.isMasked second then some <$> keyAt bytes lengthEnd else pure none
  return Frame.Header.withFlags first opcode mask payloadLength size

def uncover (mask : Option MaskKey) (covered : Bytes) : Except Trap Bytes :=
  match mask with
  | some key => covered.zipIdx.mapM fun (b, position) => do
    return b ^^^ (← byteAt key.toBytes (position % 4))
  | none => return covered

def frame (bytes : Bytes) : Machine (Frame × Nat) := do
  let header ← header bytes
  let some total := word? (header.size + header.payloadLength)
    | throw (.lengthOverflow header.payloadLength)
  if bytes.length < total then
    throw (.incompleteFrame (← sub total bytes.length))
  let covered ← range bytes header.size total
  let payload ← uncover header.mask covered
  return ({ header with mask := none }.frame payload, total)

def closeBody (payload : Bytes) : Machine (Option CloseBody) := do
  match payload.length with
  | 0 => return none
  | 1 => throw .invalidClosePayload
  | length =>
    let code := CloseCode.ofStatus (Bytes.toUInt16 (← byteAt payload 0) (← byteAt payload 1))
    if !code.isAllowed then
      throw (.invalidCloseCode code.status)
    match Bytes.toString? (← range payload 2 length) with
    | some reason => return some ⟨code, reason⟩
    | none => throw .invalidUtf8

def checkAnnounced (limits : Limits) (bytes : Bytes) : Machine Unit := do
  match ← announcedLength bytes with
  | some (length, _) => settle (limits.checkFrameSize length)
  | none => return ()

def nextFrame (d : Decoder) : Machine (Option (Frame × Decoder)) := do
  if d.buffer.length < 2 then
    return none
  let second ← byteAt d.buffer 1
  if Frame.isMasked second && !d.acceptMasked then
    throw .maskedServerFrame
  checkAnnounced d.assembly.limits d.buffer
  match ← outcome (frame d.buffer) with
  | .ok (frame, used) => return some (frame, { d with buffer := ← advance d.buffer used })
  | .error (.incompleteFrame _) => return none
  | .error e => throw e

/-! ### Events

An error that comes after a frame was taken leaves another decoder behind, as an answer does. -/

def push (a : Assembly) (frame : Frame) :
    Except Trap (Except Error (Option Message) × Assembly) := do
  match Assembly.kindFor a.kind frame.opcode with
  | .error violation => return (.error (.protocolViolation violation), a)
  | .ok kind =>
    let begun := { a with kind := some kind }
    let fragments ← add a.fragments 1
    match a.limits.checkFragments fragments with
    | .error e => return (.error e, begun)
    | .ok _ =>
      let size ← add a.gathered.length frame.payload.length
      match a.limits.checkMessageSize size with
      | .error e => return (.error e, begun)
      | .ok _ =>
        let gathered := a.gathered ++ frame.payload
        if frame.fin then return ((Assembly.complete kind gathered).map some, a.reset)
        else return (.ok none, { begun with fragments, gathered })

def accept (d : Decoder) (frame : Frame) :
    Except Trap (Except Error (Option Event) × Decoder) := do
  match frame.validate with
  | .error e => return (.error e, d)
  | .ok _ =>
    match frame.opcode with
    | .ping => return (.ok (some (.ping frame.payload)), d)
    | .pong => return (.ok (some (.pong frame.payload)), d)
    | .close =>
      let body ← (closeBody frame.payload).run
      return (body.map (some ∘ .close), d)
    | .text | .binary | .continuation =>
      let (result, assembly) ← push d.assembly frame
      return (result.map (Option.map .message), { d with assembly })

/-- Takes frames until one completes an event, in so many passes at most. -/
def nextEvent : (passes : Nat) → Decoder → Except Trap (Except Error (Option Event) × Decoder)
  | 0, _ => .error .unfinished
  | passes + 1, d => do
    match ← (nextFrame d).run with
    | .error e => return (.error e, d)
    | .ok none => return (.ok none, d)
    | .ok (some (frame, rest)) =>
      match ← accept rest frame with
      | (.ok none, rest) => nextEvent passes rest
      | (result, rest) => return (result, rest)

/-- Takes every event there is, in so many passes at most. -/
def drain : (passes : Nat) → Decoder → Except Trap Decoder.Drained
  | 0, _ => .error .unfinished
  | passes + 1, d => do
    match ← nextEvent (passes + 1) d with
    | (.error e, rest) => return ⟨[], some e, rest⟩
    | (.ok none, rest) => return ⟨[], none, rest⟩
    | (.ok (some event), rest) =>
      let later ← drain passes rest
      return { later with events := event :: later.events }

end WebSocket.Machine
