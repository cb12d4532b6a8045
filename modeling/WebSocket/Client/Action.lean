import WebSocket.Client

/-!
# What a client does, step by step

A call of the application or an event of the transport makes the client act: it changes its state
at a stroke, asks the transport or a listener and goes on with the answer, or waits for its state
to change. `Action` is that course of steps as data. The transport and the listeners may use the
client before they answer, so after each `ask` the state may be any other.
-/

namespace WebSocket

/-- What a listener is told: the calls of a `Handler`. -/
inductive Notice where
  /-- The connection is open; the response that opened it, if the transport gave one. -/
  | connected (response : Option UpgradeResponse)
  | disconnected
  | ping (payload : Bytes)
  | pong (payload : Bytes)
  | close (body : Option CloseBody)
  | error (e : Error)
  deriving DecidableEq, Repr

/-- The calls of a `Transport`, and those of the listener and of the receiver of messages. -/
inductive Request where
  | connect
  | connectAsync
  | disconnect
  | disconnectAsync
  | send (bytes : Bytes)
  | sendWithin (limit : Duration) (bytes : Bytes)
  | sendAsync (bytes : Bytes)
  | notify (listener : Listener) (notice : Notice)
  | deliver (receiver : String) (message : Message)
  deriving DecidableEq, Repr

/-- The answers to a request. A transport that fails says why; a blocking send gives the number
of bytes sent; the other calls of the transport say whether they were taken up. -/
@[reducible] def Request.Answer : Request → Type
  | connect => Except String Unit
  | connectAsync | disconnect | disconnectAsync | sendAsync _ => Bool
  | send _ | sendWithin .. => Except String Nat
  | notify .. | deliver .. => Unit

/-- The answer of surroundings that take everything up. -/
def Request.takenUp : (r : Request) → r.Answer
  | connect => .ok ()
  | connectAsync | disconnect | disconnectAsync | sendAsync _ => true
  | send bytes | sendWithin _ bytes => .ok bytes.length
  | notify .. | deliver .. => ()

/-- A course of steps that ends in a value. -/
inductive Action (α : Type) where
  | done (value : α)
  /-- Change the state and go on, knowing the state before. -/
  | access (change : Client → Client) (next : Client → Action α)
  | ask (request : Request) (next : request.Answer → Action α)
  /-- Go on when the state is ready, or when the limit has passed. -/
  | wait (limit : Option Duration) (ready : Client → Bool) (next : Action α)

namespace Action

variable {α β : Type}

def bind : Action α → (α → Action β) → Action β
  | done value, k => k value
  | access change next, k => .access change fun c => (next c).bind k
  | ask request next, k => .ask request fun answer => (next answer).bind k
  | wait limit ready next, k => .wait limit ready (next.bind k)

instance : Monad Action where
  pure := done
  bind := bind

theorem bind_assoc {γ : Type} (x : Action α) (f : α → Action β) (g : β → Action γ) :
    (x >>= f) >>= g = x >>= fun value => f value >>= g := by
  show (x.bind f).bind g = x.bind fun value => (f value).bind g
  induction x with
  | done value => rfl
  | access change next ih => exact congrArg (Action.access change) (funext ih)
  | ask request next ih => exact congrArg (Action.ask request) (funext ih)
  | wait limit ready next ih => exact congrArg (Action.wait limit ready) ih

def get : Action Client := .access id .done

def modify (change : Client → Client) : Action Unit := .access change fun _ => .done ()

def step (change : Client → α × Client) : Action α :=
  .access (fun c => (change c).2) fun c => .done (change c).1

def request (r : Request) : Action r.Answer := .ask r .done

/-- Waits until the state is ready. A limit beyond what a clock can count is none. -/
def waitFor (limit : Option Duration) (ready : Client → Bool) : Action Unit :=
  .wait (limit.filter Duration.isBounded) ready (.done ())

end Action

end WebSocket
