import WebSocket.Client.Run
import WebSocket.Rehearsal.Step

/-!
# The stage of a rehearsal

What the surroundings of a rehearsed client know: the manner of the transport, the steps that are
still to be made on each cue, what has been written down, the time and the threads that wait.
-/

namespace WebSocket.Rehearsal

/-- A thread that waits in the middle of a call. -/
structure Sleeper where
  number : Nat
  wakesAt : Option Nat
  /-- Where it finds the client ready it goes on before. -/
  ready : Client → Bool
  rest : Action Reply

/-- What is around a rehearsed client. -/
structure Props where
  manner : Manner := {}
  /-- For each cue the steps of its next occurrences. -/
  cues : Cue → List (List Step)
  keysMade : Nat := 0
  /-- The keys written down, in the order in which each was first. -/
  keysSeen : List HandshakeKey := []
  /-- What is written down, last entry first. -/
  log : List Entry := []
  /-- Milliseconds since the start. Only waits take time. -/
  clock : Nat := 0
  threadsMade : Nat := 0
  /-- The threads that wait, the one that began to wait first in front. -/
  sleepers : List Sleeper := []
  /-- What the calls of threads gave, each with the number of its thread. -/
  replies : List (Nat × Reply) := []

abbrev Stage := Setting Props

namespace Stage

def adjust (s : Stage) (change : Props → Props) : Stage := { s with around := change s.around }

def record (s : Stage) (entry : Entry) : Stage :=
  s.adjust fun p => { p with log := entry :: p.log }

def takeLog (s : Stage) : List Entry × Stage :=
  (s.around.log.reverse, s.adjust fun p => { p with log := [] })

def freshKey (s : Stage) : HandshakeKey × Stage :=
  (.ofNonce (Bytes.ofNat 16 s.around.keysMade),
    s.adjust fun p => { p with keysMade := p.keysMade + 1 })

/-- Writes the key of the client down by its number. -/
def markKey (s : Stage) : Option KeyMark × Stage :=
  match s.client.key with
  | none => (none, s)
  | some key =>
    match s.around.keysSeen.idxOf? key with
    | some number => (some ⟨key.text.length, number⟩, s)
    | none =>
      (some ⟨key.text.length, s.around.keysSeen.length⟩,
        s.adjust fun p => { p with keysSeen := p.keysSeen ++ [key] })

def recordRequest (s : Stage) (request : Request) : Stage :=
  match request with
  | .connect | .connectAsync =>
    let (mark, s) := s.markKey
    s.record (.asked request mark)
  | _ => s.record (.asked request none)

/-- Takes the steps for an occurrence of a cue. -/
def takeCue (s : Stage) (cue : Cue) : List Step × Stage :=
  match s.around.cues cue with
  | [] => ([], s)
  | steps :: later =>
    (steps, s.adjust fun p => { p with cues := fun c => if c = cue then later else p.cues c })

def advance (s : Stage) (time : Nat) : Stage :=
  s.adjust fun p => { p with clock := max p.clock time }

/-- The end of a wait that begins now. -/
def deadline (s : Stage) (limit : Option Duration) : Option Nat :=
  limit.map fun d => s.around.clock + d.millis

/-- Takes the first thread of which something holds from those that wait. -/
def takeSleeper (s : Stage) (holds : Sleeper → Bool) : Option (Sleeper × Stage) :=
  (s.around.sleepers.find? holds).map fun sleeper =>
    (sleeper, s.adjust fun p => { p with sleepers := p.sleepers.eraseP holds })

def reply? (s : Stage) (thread : Nat) : Option Reply := s.around.replies.lookup thread

end Stage

end WebSocket.Rehearsal
