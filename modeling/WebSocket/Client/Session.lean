import WebSocket.Client.Call

/-!
# A client in use

A call acts until it asks for something or has to wait. Then others have control: a listener or the
transport that was asked may make calls of its own before it answers, and so may another thread
while a call waits. Such calls are seen through before the call that gave up control goes on. A
`Session` is a client at a moment when others have control, with the calls under way and all that
happened so far. It goes on by a `Choice` of those who have control.

One thread acts inside the client at a time. What a function does under different locks, one after
another and with nobody asked in between, is one stroke here: beginning an attempt, giving it up and
the end of a connection change `lifecycle`, `inbox` and `hub` at once (`Client.beginConnect`,
`Client.abortConnect`, `Client.disconnected`). Two threads inside the client at once, where one
finds it between two locks of the other, are left out.
-/

namespace WebSocket

inductive Moment where
  | called (call : Call)
  | changed (before after : Client)
  | asked (request : Request)
  | answered (request : Request) (answer : request.Answer)
  | returned (reply : Reply)

/-- Where a call gave up control, and how it goes on. -/
inductive Halt where
  | asking (request : Request) (next : request.Answer → Action Reply)
  | waiting (limit : Option Duration) (ready : Client → Bool) (next : Action Reply)

structure Caller where
  call : Call
  /-- What had happened when the call was made, latest first. -/
  since : List Moment
  halt : Halt

/-- A client in use, while others have control. -/
structure Session where
  client : Client
  /-- The calls under way, the last one first. -/
  callers : List Caller := []
  /-- What happened, latest first. -/
  history : List Moment := []

namespace Session

def ofConfig (config : Config) (seed : UInt32) : Session := { client := .ofConfig config seed }

/-- Lets a call act until it gives up control or returns. -/
def act (call : Call) (since : List Moment) (callers : List Caller) :
    Action Reply → Client → List Moment → Session
  | .done reply, c, history => ⟨c, callers, .returned reply :: history⟩
  | .access change next, c, history =>
    act call since callers (next c) (change c) (.changed c (change c) :: history)
  | .ask request next, c, history =>
    ⟨c, ⟨call, since, .asking request next⟩ :: callers, .asked request :: history⟩
  | .wait limit ready next, c, history =>
    if ready c then act call since callers next c history
    else ⟨c, ⟨call, since, .waiting limit ready next⟩ :: callers, history⟩

end Session

/-- A call that has got control. -/
structure Turn where
  call : Call
  /-- What had happened when the call was made, latest first. -/
  since : List Moment
  course : Action Reply
  /-- The calls that were under way when it was made. -/
  callers : List Caller
  history : List Moment

def Turn.play (turn : Turn) (c : Client) : Session :=
  .act turn.call turn.since turn.callers turn.course c turn.history

inductive Choice where
  | call (call : Call)
  | answer (how : (r : Request) → r.Answer)
  /-- Let the last call go on that waits. -/
  | goOn

namespace Session

/-- The turn that a choice leads to, where the choice is possible. A wait is over when the client
is ready, or when time is up, which it is not without a limit. -/
def turn? (s : Session) : Choice → Option Turn
  | .call call => some ⟨call, s.history, call.action, s.callers, .called call :: s.history⟩
  | .answer how =>
    match s.callers with
    | ⟨call, since, .asking request next⟩ :: callers =>
      some ⟨call, since, next (how request), callers,
        .answered request (how request) :: s.history⟩
    | ⟨_, _, .waiting ..⟩ :: _ | [] => none
  | .goOn =>
    match s.callers with
    | ⟨call, since, .waiting limit ready next⟩ :: callers =>
      if ready s.client || limit.isSome then some ⟨call, since, next, callers, s.history⟩
      else none
    | ⟨_, _, .asking ..⟩ :: _ | [] => none

/-- Makes choices one after another; `none` if one of them is not possible. -/
def after : List Choice → Session → Option Session
  | [], s => some s
  | choice :: later, s => (s.turn? choice).bind fun turn => after later (turn.play s.client)

/-- What can become of a new client, where some turns are ruled out. -/
inductive ReachableBy (allowed : Session → Turn → Prop) (config : Config) (seed : UInt32) :
    Session → Prop
  | start : ReachableBy allowed config seed (.ofConfig config seed)
  | turn {s : Session} {turn : Turn} (choice : Choice) (before : ReachableBy allowed config seed s)
    (possible : s.turn? choice = some turn) (allows : allowed s turn) :
    ReachableBy allowed config seed (turn.play s.client)

abbrev Reachable (config : Config) (seed : UInt32) (s : Session) : Prop :=
  ReachableBy (fun _ _ => True) config seed s

theorem ReachableBy.after {config : Config} {seed : UInt32} {s s' : Session}
    (reachable : Reachable config seed s) {choices : List Choice}
    (made : after choices s = some s') : Reachable config seed s' := by
  induction choices generalizing s with
  | nil =>
    cases made
    exact reachable
  | cons choice later ih =>
    obtain ⟨turn, possible, made⟩ := Option.bind_eq_some_iff.mp made
    exact ih (.turn choice reachable possible trivial) made

end Session

end WebSocket
