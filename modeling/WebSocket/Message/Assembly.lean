import WebSocket.Frame
import WebSocket.Limits
import WebSocket.Message

/-!
# Putting messages together

A message is sent as one frame or as several: a text or binary frame, then continuations, the last
frame marked final. `Assembly` holds what has arrived of a message; `Assembly.push` adds a frame
to it and hands the message over when it is complete.
-/

namespace WebSocket

/-- The state of a `MessageAssembler`: the message under way, within limits. -/
structure Assembly where
  limits : Limits
  kind : Option DataKind := none
  fragments : Nat := 0
  /-- The payloads of its frames, one after another. -/
  gathered : Bytes := []
  deriving DecidableEq, Repr

namespace Assembly

def isAssembling (a : Assembly) : Bool := a.kind.isSome

def reset (a : Assembly) : Assembly := { limits := a.limits }

/-- The sort of message that a frame belongs to, as `push` settles it first: a continuation goes
with the message under way, and a text or binary frame begins one if there is none. -/
def kindFor (underway : Option DataKind) (op : Opcode) : Except Violation DataKind :=
  match op, underway with
  | .continuation, none => .error .unexpectedContinuation
  | .continuation, some kind => .ok kind
  | op, underway =>
    match op.begins?, underway with
    | some kind, none => .ok kind
    | some _, some _ => .error .expectedContinuation
    | none, _ => .error (.notPartOfMessage op)

def complete (kind : DataKind) (payload : Bytes) : Except Error Message :=
  match kind with
  | .text =>
    match Bytes.toString? payload with
    | some content => .ok (.text content)
    | none => .error .invalidUtf8
  | .binary => .ok (.binary payload)

/-- Adds a frame to the message under way; gives the message if the frame is its last. The sort of
message is settled before the limits are checked. -/
def push (a : Assembly) (frame : Frame) : Except Error (Option Message) × Assembly :=
  match kindFor a.kind frame.opcode with
  | .error violation => (.error (.protocolViolation violation), a)
  | .ok kind =>
    let begun := { a with kind := some kind }
    match a.limits.checkFragments (a.fragments + 1),
        a.limits.checkMessageSize (a.gathered.length + frame.payload.length) with
    | .error e, _ => (.error e, begun)
    | .ok _, .error e => (.error e, begun)
    | .ok _, .ok _ =>
      let payload := a.gathered ++ frame.payload
      if frame.fin then ((complete kind payload).map some, a.reset)
      else (.ok none, { begun with fragments := a.fragments + 1, gathered := payload })

end Assembly

end WebSocket
