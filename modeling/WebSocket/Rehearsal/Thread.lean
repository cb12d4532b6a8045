import WebSocket.Rehearsal.Stage

/-!
# Threads and time in a rehearsal

A call can be made on a thread of its own. Where it has to wait, the thread sleeps until the client
is ready for it or its time is up. Threads go on while someone else waits, one after another: those
that are ready first, in the order in which they began to wait, and only when none is ready does
time pass, up to the next moment at which a wait is over.
-/

namespace WebSocket.Rehearsal

/-- Keeps what a thread has come to: what its call gave, or what it waits for. -/
def Stage.keep (s : Stage) (thread : Nat) : Progress Reply → Stage
  | .finished reply => s.adjust fun p => { p with replies := (thread, reply) :: p.replies }
  | .waiting limit ready rest =>
    s.adjust fun p =>
      { p with sleepers := p.sleepers ++ [⟨thread, s.deadline limit, ready, rest⟩] }
  | .stuck => s

variable (answer : Surroundings Props)

def proceed (thread : Nat) (action : Action Reply) (s : Stage) : Stage :=
  let (progress, s) := action.run answer s
  Stage.keep s thread progress

/-- Lets others go on and time pass until something holds or a moment has come; `false` if neither
ever happens. A thread that wakes at that very moment goes on before. -/
def passTime (holds : Stage → Bool) (moment : Option Nat) : (turns : Nat) → Stage → Bool × Stage
  | 0, s => (false, s)
  | turns + 1, s =>
    match s.takeSleeper fun t => t.ready s.client with
    | some (t, s) => passTime holds moment turns (proceed answer t.number t.rest s)
    | none =>
      if holds s then (true, s)
      else
        match (moment.toList ++ s.around.sleepers.filterMap (·.wakesAt)).min? with
        | none => (false, s)
        | some time =>
          match (s.advance time).takeSleeper fun t => t.wakesAt == some time with
          | some (t, s) => passTime holds moment turns (proceed answer t.number t.rest s)
          | none => (true, s.advance time)

def pause (turns : Nat) : Pause Props := fun limit ready (s : Stage) =>
  passTime answer (fun s => ready s.client) (s.deadline limit) turns s

/-- Lets those go on who need not wait. -/
def settle (turns : Nat) (s : Stage) : Stage := (passTime answer (fun _ => true) none turns s).2

/-- Makes calls on threads of their own; gives the numbers of the threads. -/
def startAll : List Call → Stage → List Nat × Stage
  | [], s => ([], s)
  | call :: rest, s =>
    let thread := s.around.threadsMade
    let s := s.adjust fun p => { p with threadsMade := thread + 1 }
    let (threads, s) := startAll rest (proceed answer thread call.action s)
    (thread :: threads, s)

/-- Waits for threads to end, one after another; gives what their calls gave. -/
def joinAll (turns : Nat) : List Nat → Stage → List (Option Reply) × Stage
  | [], s => ([], s)
  | thread :: rest, s =>
    let (_, s) := passTime answer (fun s => (s.reply? thread).isSome) none turns s
    let (replies, s) := joinAll turns rest s
    (s.reply? thread :: replies, s)

end WebSocket.Rehearsal
