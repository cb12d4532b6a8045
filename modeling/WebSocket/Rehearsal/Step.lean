import WebSocket.Client.Call

/-!
# The words of a rehearsal

A rehearsal plays a client against surroundings that follow a script. `Step` is what a script can
call for, `Cue` names the moments at which the surroundings use the client on their own, and
`Entry` is what is written down of what the client asked for.
-/

namespace WebSocket.Rehearsal

/-- The moments at which the surroundings may use the client. -/
inductive Cue where
  | connect
  | connectAsync
  | connected
  | disconnected
  | ping
  | pong
  | close
  | error
  | message
  deriving DecidableEq, Repr

structure Manner where
  refuseAsync : Bool := false
  refuseConnectAsync : Bool := false
  /-- A disconnect is not reported at once. -/
  deferDisconnect : Bool := false
  disconnectAnswer : Bool := true
  /-- Why connecting fails. -/
  failConnect : Option String := none
  /-- Why sending fails. -/
  failSend : Option String := none
  /-- Number of bytes after which a bounded send stops. -/
  stall : Option Nat := none
  deriving DecidableEq, Repr

inductive Change where
  | refuseAsync (on : Bool)
  | refuseConnectAsync (on : Bool)
  | deferDisconnect (on : Bool)
  | disconnectAnswer (on : Bool)
  | failConnect (reason : Option String)
  | failSend (reason : Option String)
  | stall (count : Option Nat)
  deriving DecidableEq, Repr

def Manner.apply (m : Manner) : Change → Manner
  | .refuseAsync on => { m with refuseAsync := on }
  | .refuseConnectAsync on => { m with refuseConnectAsync := on }
  | .deferDisconnect on => { m with deferDisconnect := on }
  | .disconnectAnswer on => { m with disconnectAnswer := on }
  | .failConnect reason => { m with failConnect := reason }
  | .failSend reason => { m with failSend := reason }
  | .stall count => { m with stall := count }

inductive Reading where
  | message
  | text
  | bytes
  deriving DecidableEq, Repr

inductive Question where
  | isOpen
  | closeStatus
  /-- The key, as the application sees it. -/
  | key
  /-- The key, as the transport sees it. -/
  | upgradeKey
  | report
  | config
  deriving DecidableEq, Repr

/-- One step of a script. -/
inductive Step where
  | connect
  | connectAsync
  | call (call : Call)
  | receive (reading : Reading) (limit : Option Duration)
  | look (question : Question)
  /-- A response arrives. In its header values the mark `$ACCEPT` stands for the right answer. -/
  | respond (response : UpgradeResponse)
  /-- The right response arrives and the handshake is complete. -/
  | accept
  /-- Bytes arrive, delivery by delivery. -/
  | deliver (chunks : List Bytes)
  | transport (changes : List Change)
  /-- Connect on a thread of its own, and go on with other steps while it waits. -/
  | connectWhile (meanwhile : List Step)
  /-- Receive on threads of their own, and go on with other steps while they wait. -/
  | receiveWhile (readers : Nat) (reading : Reading) (limit : Option Duration)
      (meanwhile : List Step)

mutual

/-- Number of steps that a step is made of, and of threads that they start. -/
def Step.size : Step → Nat
  | .connectWhile meanwhile => sizeAll meanwhile + 2
  | .receiveWhile readers _ _ meanwhile => sizeAll meanwhile + readers + 1
  | _ => 1

/-- Number of steps that a list of steps is made of, and of threads that they start. -/
def sizeAll : List Step → Nat
  | [] => 0
  | step :: rest => step.size + sizeAll rest

end

/-- A key as it is written down: its length and its number among the keys seen so far. -/
structure KeyMark where
  length : Nat
  number : Nat
  deriving DecidableEq, Repr

mutual

inductive Outcome where
  | done
  | flag (answer : Bool)
  | outcome (answer : Except Error Bool)
  | count (answer : Except Error Nat)
  | message (answer : Option Message)
  | text (answer : Option String)
  | bytes (answer : Option Bytes)
  | close (body : Option CloseBody)
  | key (mark : Option KeyMark)
  | report (text : String)
  | config (config : Config)
  /-- The steps that were made while a connect waited, and what it gave. -/
  | duringConnect (meanwhile : List Item) (result : Outcome)
  /-- The steps that were made while readers waited, and what each of them got. -/
  | duringReceive (meanwhile : List Item) (results : List Outcome)
  | never

/-- What is written down, in the order in which it happens. -/
inductive Entry where
  /-- The client asked for something; with a request to connect, the key of the moment. -/
  | asked (request : Request) (key : Option KeyMark)
  | cued (cue : Cue) (step : Step) (outcome : Outcome)

/-- A step that was made: what it gave, what was written down up to its end and not before, and
the phase after it. -/
inductive Item where
  | mk (outcome : Outcome) (log : List Entry) (phase : Phase)

end

end WebSocket.Rehearsal
