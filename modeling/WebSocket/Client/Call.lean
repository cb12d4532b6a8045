import WebSocket.Client.Connecting
import WebSocket.Client.Receiving

/-!
# Everything that can be asked of a client

`Call` lists the calls of the application and the events of the transport, and `Call.action` says
what the client does about each.
-/

namespace WebSocket

/-- A call of the application or an event of the transport. -/
inductive Call where
  | connect (key : HandshakeKey)
  | connectAsync (key : HandshakeKey)
  | disconnect
  | disconnectAsync
  /-- Any of `send_text`, `send_binary`, `send_ping` and `send_pong`, with or without a limit. -/
  | send (what : Outgoing) (limit : Option Duration)
  | sendAsync (what : Outgoing)
  | sendClose (code : CloseCode) (reason : String) (limit : Option Duration)
  | sendCloseAsync (code : CloseCode) (reason : String)
  | receive (limit : Option Duration)
  /-- Choose who is told (`set_handler`). -/
  | listen (listener : Listener)
  /-- Choose who is given the messages (`set_message_handler`); with nobody they wait in the mailbox
  (`clear_message_handler`). -/
  | deliverTo (receiver : Option String)
  | responseArrived (response : UpgradeResponse)
  | handshakeCompleted
  | bytesArrived (data : Bytes)
  | transportDown
  | transportFailed (reason : String)
  deriving DecidableEq, Repr

inductive Reply where
  | none
  | flag (answer : Bool)
  | outcome (answer : Except Error Bool)
  | count (answer : Except Error Nat)
  | message (answer : Option Message)

def Call.action : Call → Action Reply
  | connect key => .outcome <$> Client.connect key
  | connectAsync key => .outcome <$> Client.connectAsync key
  | disconnect => .flag <$> Client.disconnect
  | disconnectAsync => .flag <$> Client.disconnectAsync
  | send what limit => .count <$> Client.send what limit
  | sendAsync what => .outcome <$> Client.sendAsync what
  | sendClose code reason limit => .count <$> Client.sendClose code reason limit
  | sendCloseAsync code reason => .outcome <$> Client.sendCloseAsync code reason
  | receive limit => .message <$> Client.receive limit
  | listen listener => do
    Action.modify fun c => { c with listener := some listener }
    return .none
  | deliverTo receiver => do
    Action.modify fun c => { c with receiver }
    return .none
  | responseArrived response => do Client.responseArrived response; return .none
  | handshakeCompleted => do Client.handshakeCompleted; return .none
  | bytesArrived data => do Client.bytesArrived data; return .none
  | transportDown => do Client.transportDown; return .none
  | transportFailed reason => do Client.transportFailed reason; return .none

end WebSocket
