import WebSocket.Client.Action

/-!
# Telling the listener, and the end of a connection
-/

namespace WebSocket.Client

open WebSocket.Action

/-- Tells the listener of the moment (`current_handler`), if there is one. -/
def notify (notice : Notice) : Action Unit := do
  match (← get).listener with
  | some listener => request (.notify listener notice)
  | none => return

/-- The transport is down (`on_disconnected`). The listener is told unless it was down before. -/
def transportDown : Action Unit := do
  if ← step disconnected then notify .disconnected

/-- The transport failed (`on_transport_error`), which ends the connection, too. -/
def transportFailed (reason : String) : Action Unit := do
  notify (.error (.fault .transport reason))
  transportDown

end WebSocket.Client
