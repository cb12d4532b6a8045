import WebSocket.Rehearsal.Stage

/-!
# How the surroundings of a rehearsal answer

The transport and the listeners write down what they are asked, make the steps of their cue on the
spot and answer in the manner of the moment.
-/

namespace WebSocket.Rehearsal

def cueOf : Notice → Cue
  | .connected _ => .connected
  | .disconnected => .disconnected
  | .ping _ => .ping
  | .pong _ => .pong
  | .close _ => .close
  | .error _ => .error

variable (perform : Step → Stage → Outcome × Stage)

/-- Makes steps on a cue and writes them down; `false` if one never ends. -/
def makeCued (cue : Cue) : List Step → Stage → Bool × Stage
  | [], s => (true, s)
  | step :: rest, s =>
    match perform step s with
    | (.never, s) => (false, s)
    | (outcome, s) => makeCued cue rest (s.record (.cued cue step outcome))

/-- Writes a request down, makes the steps of its cue and then answers. -/
def answerOnCue {α : Type} (request : Request) (cue : Cue) (answer : Manner → α) (s : Stage) :
    Option α × Stage :=
  let (steps, s) := (s.recordRequest request).takeCue cue
  match makeCued perform cue steps s with
  | (true, s) => (some (answer s.around.manner), s)
  | (false, s) => (none, s)

def answerAtOnce {α : Type} (request : Request) (answer : Manner → α) (s : Stage) :
    Option α × Stage :=
  (some (answer s.around.manner), s.recordRequest request)

/-- The transport goes down, and says so at once unless it is told to wait. -/
def goDown (request : Request) (s : Stage) : Option Bool × Stage :=
  let s := s.recordRequest request
  if s.around.manner.deferDisconnect then (some s.around.manner.disconnectAnswer, s)
  else
    match perform (.call .transportDown) s with
    | (.never, s) => (none, s)
    | (_, s) => (some s.around.manner.disconnectAnswer, s)

def Manner.connectAnswer (m : Manner) : Except String Unit :=
  match m.failConnect with
  | some reason => .error reason
  | none => .ok ()

/-- How a transport of some manner answers a send of some bytes, of which it takes at most as many
as there is room for. -/
def Manner.sendAnswer (m : Manner) (size : Nat) (room : Option Nat) : Except String Nat :=
  match m.failSend with
  | some reason => .error reason
  | none => .ok (min size (room.getD size))

/-- The surroundings of a rehearsed client, which make steps by `perform`. -/
def surroundings : Surroundings Props
  | .connect => answerOnCue perform .connect .connect Manner.connectAnswer
  | .connectAsync =>
    answerOnCue perform .connectAsync .connectAsync fun m => !m.refuseConnectAsync
  | .disconnect => goDown perform .disconnect
  | .disconnectAsync => goDown perform .disconnectAsync
  | .send bytes => answerAtOnce (.send bytes) fun m => m.sendAnswer bytes.length none
  | .sendWithin limit bytes =>
    answerAtOnce (.sendWithin limit bytes) fun m => m.sendAnswer bytes.length m.stall
  | .sendAsync bytes => answerAtOnce (.sendAsync bytes) fun m => !m.refuseAsync
  | .notify .silent _ => fun s => (some (), s)
  | .notify (.named name) notice =>
    answerOnCue perform (.notify (.named name) notice) (cueOf notice) fun _ => ()
  | .deliver receiver message =>
    answerOnCue perform (.deliver receiver message) .message fun _ => ()

end WebSocket.Rehearsal
