import WebSocket.Message

/-!
# Messages that wait to be received

A mailbox hands messages out in the order in which they came. While it is open a reader waits for
the next message; once it is closed a reader gets what is left and then nothing.
-/

namespace WebSocket

/-- The state of a `ReceiveHub`. -/
structure Mailbox where
  messages : List Message := []
  isClosed : Bool := true
  deriving DecidableEq, Repr

namespace Mailbox

/-- Lets readers wait (`open`). -/
def reopen (m : Mailbox) : Mailbox := { m with isClosed := false }

/-- Lets no reader wait any longer. -/
def close (m : Mailbox) : Mailbox := { m with isClosed := true }

/-- Adds a message, also to a closed mailbox. -/
def push (m : Mailbox) (message : Message) : Mailbox :=
  { m with messages := m.messages ++ [message] }

def size (m : Mailbox) : Nat := m.messages.length

def isEmpty (m : Mailbox) : Bool := m.messages.isEmpty

/-- Takes the oldest message without a wait (`try_pop`). -/
def pop (m : Mailbox) : Option Message × Mailbox :=
  match m.messages with
  | [] => (none, m)
  | message :: rest => (some message, { m with messages := rest })

/-- Whether a reader gets its answer at once: where not, `pop` waits. -/
def isReady (m : Mailbox) : Bool := !m.isEmpty || m.isClosed

end Mailbox

end WebSocket
