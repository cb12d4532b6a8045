import WebSocket.Bytes
import WebSocket.Error
import WebSocket.Close.Code

/-!
# The body of a close frame

The payload of a close frame is empty or holds a status and a reason in UTF-8.
-/

namespace WebSocket

structure CloseBody where
  code : CloseCode
  reason : String
  deriving DecidableEq, Repr

namespace CloseBody

/-- Reads the payload of a close frame; an empty one gives no reason at all. -/
def parse : Bytes → Except Error (Option CloseBody)
  | [] => .ok none
  | [_] => .error .invalidClosePayload
  | high :: low :: reason =>
    let code := CloseCode.ofStatus (Bytes.toUInt16 high low)
    if !code.isAllowed then .error (.invalidCloseCode code.status)
    else match Bytes.toString? reason with
      | some reason => .ok (some ⟨code, reason⟩)
      | none => .error .invalidUtf8

end CloseBody

end WebSocket
