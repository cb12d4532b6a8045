import WebSocket.Client.Session

/-!
# The strokes of a client

Whatever is asked of a client, it changes its state by a few strokes only: it reads what arrived,
takes or leaves the gate (`GateStroke`), or makes one of the other strokes (`Stroke`). Those are
listed once, each with what it is about (`StrokeOf`), and a sort of strokes is named by what its
strokes may be about. `Action.Every` says that all steps of an action are of some sort, whatever the
answers and wherever control was given up.
-/

namespace WebSocket

variable {α β : Type}

/-! ### All steps of an action -/

namespace Action

/-- Every change and every request of an action is of some sort, as long as the client is one of
those that are possible. -/
def Every (possible : Client → Prop) (change : Client → Client → Prop) (asks : Request → Prop) :
    Action α → Prop
  | .done _ => True
  | .access f next => ∀ c, possible c → change c (f c) ∧ (next c).Every possible change asks
  | .ask request next => asks request ∧ ∀ answer, (next answer).Every possible change asks
  | .wait _ _ next => next.Every possible change asks

variable {possible : Client → Prop} {change : Client → Client → Prop} {asks : Request → Prop}

theorem Every.mono {possible' : Client → Prop} {change' : Client → Client → Prop}
    {asks' : Request → Prop} {x : Action α} (every : x.Every possible change asks)
    (fewer : ∀ c, possible' c → possible c) (wider : ∀ c c', change c c' → change' c c')
    (more : ∀ r, asks r → asks' r) : x.Every possible' change' asks' := by
  induction x with
  | done value => trivial
  | access f next ih =>
    intro c isPossible
    obtain ⟨changed, later⟩ := every c (fewer c isPossible)
    exact ⟨wider _ _ changed, ih c later⟩
  | ask request next ih =>
    obtain ⟨asked, later⟩ := every
    exact ⟨more _ asked, fun answer => ih answer (later answer)⟩
  | wait limit ready next ih => exact ih every

theorem every_pure (value : α) : (pure value : Action α).Every possible change asks := trivial

theorem every_bind {x : Action α} {k : α → Action β} (first : x.Every possible change asks)
    (later : ∀ v, (k v).Every possible change asks) : (x >>= k).Every possible change asks := by
  show (x.bind k).Every possible change asks
  induction x with
  | done value => exact later value
  | access f next ih =>
    intro c isPossible
    obtain ⟨changed, rest⟩ := first c isPossible
    exact ⟨changed, ih c rest⟩
  | ask request next ih =>
    obtain ⟨asked, rest⟩ := first
    exact ⟨asked, fun answer => ih answer (rest answer)⟩
  | wait limit ready next ih => exact ih first

theorem every_first {x : Action α} {k : α → Action β}
    (every : (x >>= k).Every possible change asks) : x.Every possible change asks := by
  change (x.bind k).Every possible change asks at every
  induction x with
  | done value => trivial
  | access f next ih =>
    intro c isPossible
    obtain ⟨changed, rest⟩ := every c isPossible
    exact ⟨changed, ih c rest⟩
  | ask request next ih =>
    obtain ⟨asked, rest⟩ := every
    exact ⟨asked, fun answer => ih answer (rest answer)⟩
  | wait limit ready next ih => exact ih every

/-- What follows an action is of the sort, too, for some way in which the action may go. -/
theorem every_later {x : Action α} {k : α → Action β}
    (every : (x >>= k).Every possible change asks) (some : ∃ c, possible c) :
    ∃ v, (k v).Every possible change asks := by
  obtain ⟨c, isPossible⟩ := some
  change (x.bind k).Every possible change asks at every
  induction x with
  | done value => exact ⟨value, every⟩
  | access f next ih => exact ih c (every c isPossible).2
  | ask request next ih => exact ih request.takenUp (every.2 request.takenUp)
  | wait limit ready next ih => exact ih every

theorem every_step {f : Client → α × Client} (changes : ∀ c, possible c → change c (f c).2) :
    (step f).Every possible change asks := fun c isPossible => ⟨changes c isPossible, trivial⟩

/-- What follows a step may depend on the state that gave its value. -/
theorem every_step_bind {f : Client → α × Client} {k : α → Action β}
    (changes : ∀ c, possible c → change c (f c).2)
    (later : ∀ c, possible c → (k (f c).1).Every possible change asks) :
    (step f >>= k).Every possible change asks :=
  fun c isPossible => ⟨changes c isPossible, later c isPossible⟩

theorem every_after_step {f : Client → α × Client} {k : α → Action β}
    (every : (step f >>= k).Every possible change asks) (c : Client) (isPossible : possible c) :
    (k (f c).1).Every possible change asks := (every c isPossible).2

theorem every_modify {f : Client → Client} (changes : ∀ c, possible c → change c (f c)) :
    (modify f).Every possible change asks := fun c isPossible => ⟨changes c isPossible, trivial⟩

theorem every_get (same : ∀ c, possible c → change c c) : get.Every possible change asks :=
  fun c isPossible => ⟨same c isPossible, trivial⟩

theorem every_get_bind {k : Client → Action β} (same : ∀ c, possible c → change c c)
    (later : ∀ c, possible c → (k c).Every possible change asks) :
    (get >>= k).Every possible change asks :=
  fun c isPossible => ⟨same c isPossible, later c isPossible⟩

theorem every_request {r : Request} (asked : asks r) : (request r).Every possible change asks :=
  ⟨asked, fun _ => trivial⟩

theorem every_waitFor (limit : Option Duration) (ready : Client → Bool) :
    (waitFor limit ready).Every possible change asks := trivial

end Action

/-! ### Turns -/

def Halt.Every (possible : Client → Prop) (change : Client → Client → Prop)
    (asks : Request → Prop) : Halt → Prop
  | .asking _ next => ∀ answer, (next answer).Every possible change asks
  | .waiting _ _ next => next.Every possible change asks

theorem Halt.Every.mono {possible : Client → Prop} {change change' : Client → Client → Prop}
    {asks asks' : Request → Prop} {halt : Halt} (every : halt.Every possible change asks)
    (wider : ∀ c c', change c c' → change' c c') (more : ∀ r, asks r → asks' r) :
    halt.Every possible change' asks' := by
  cases halt with
  | asking request next => exact fun answer => (every answer).mono (fun _ => id) wider more
  | waiting limit ready next => exact Action.Every.mono every (fun _ => id) wider more

def Moment.Of (change : Client → Client → Prop) (asks : Request → Prop) : Moment → Prop
  | changed before after => change before after
  | asked request => asks request
  | returned _ => True
  | called _ | answered .. => False

structure Session.Outcome (possible : Client → Prop) (change : Client → Client → Prop)
    (asks : Request → Prop) (turn : Turn) (s : Session) : Prop where
  client : possible s.client
  history : ∃ new, s.history = new ++ turn.history ∧ ∀ moment ∈ new, moment.Of change asks
  left : ∀ halt, s.callers = ⟨turn.call, turn.since, halt⟩ :: turn.callers →
    halt.Every possible change asks

theorem Turn.play_every {possible : Client → Prop} {change : Client → Client → Prop}
    {asks : Request → Prop} (stays : ∀ c c', possible c → change c c' → possible c')
    {turn : Turn} (every : turn.course.Every possible change asks) {c : Client}
    (isPossible : possible c) :
    Session.Outcome possible change asks turn (turn.play c) := by
  obtain ⟨call, since, course, callers, h⟩ := turn
  simp only at every
  show Session.Outcome _ _ _ _ (Session.act call since callers course c h)
  induction course generalizing c h with
  | done reply =>
    refine ⟨isPossible, ⟨[.returned reply], rfl, by simp [Moment.Of]⟩, fun halt same => ?_⟩
    exact absurd same.symm (List.cons_ne_self _ _)
  | access f next ih =>
    obtain ⟨changed, later⟩ := every c isPossible
    obtain ⟨client, ⟨new, history, sort⟩, left⟩ :=
      ih c (stays _ _ isPossible changed) (.changed c (f c) :: h) later
    refine ⟨client, ⟨new ++ [.changed c (f c)], by simpa [Session.act] using history, ?_⟩, left⟩
    intro moment isIn
    rcases List.mem_append.mp isIn with isLater | isFirst
    · exact sort moment isLater
    · rw [List.mem_singleton.mp isFirst]
      exact changed
  | ask request next ih =>
    refine ⟨isPossible, ⟨[.asked request], rfl, ?_⟩, fun halt same => ?_⟩
    · intro moment isIn
      rw [List.mem_singleton.mp isIn]
      exact every.1
    · cases same
      exact every.2
  | wait limit ready next ih =>
    unfold Session.act
    split
    · obtain ⟨client, history, left⟩ := ih isPossible h every
      exact ⟨client, history, left⟩
    · refine ⟨isPossible, ⟨[], rfl, by simp⟩, fun halt same => ?_⟩
      cases same
      exact every

theorem Turn.play_callers (turn : Turn) (c : Client) :
    (turn.play c).callers = turn.callers ∨ ∃ halt,
      (turn.play c).callers = ⟨turn.call, turn.since, halt⟩ :: turn.callers := by
  obtain ⟨call, since, course, callers, h⟩ := turn
  show (Session.act call since callers course c h).callers = callers ∨ ∃ halt,
    (Session.act call since callers course c h).callers = ⟨call, since, halt⟩ :: callers
  induction course generalizing c h with
  | done reply => exact .inl rfl
  | access f next ih => exact ih c (f c) (.changed c (f c) :: h)
  | ask request next ih => exact .inr ⟨_, rfl⟩
  | wait limit ready next ih =>
    unfold Session.act
    split
    · exact ih c h
    · exact .inr ⟨_, rfl⟩

/-- What is left to do is of some sort, whatever the answer. -/
def Halt.Leaves (sort : Action Reply → Prop) : Halt → Prop
  | .asking _ next => ∀ answer, sort (next answer)
  | .waiting _ _ next => sort next

/-- What a turn does is of the sort that its call began as, if what the calls under way have left
is. -/
theorem Session.course_of_turn (sort : Call → Action Reply → Prop)
    (begins : ∀ call : Call, sort call call.action) {s : Session}
    (leaves : ∀ caller ∈ s.callers, caller.halt.Leaves (sort caller.call)) {choice : Choice}
    {turn : Turn} (possible : s.turn? choice = some turn) :
    sort turn.call turn.course ∧ ∀ caller ∈ turn.callers, caller ∈ s.callers := by
  obtain ⟨c, callers, h⟩ := s
  cases choice with
  | call call =>
    cases possible
    exact ⟨begins call, fun caller => id⟩
  | answer how =>
    match callers, possible with
    | ⟨call, since, .asking request next⟩ :: callers, possible =>
      cases possible
      exact ⟨leaves _ List.mem_cons_self (how request), fun _ => List.mem_cons_of_mem _⟩
  | goOn =>
    match callers, possible with
    | ⟨call, since, .waiting limit ready next⟩ :: callers, possible =>
      simp only [turn?] at possible
      split at possible <;> cases possible
      exact ⟨leaves _ List.mem_cons_self, fun _ => List.mem_cons_of_mem _⟩

/-- What the calls under way have left is of the sort of their actions. -/
def Session.Continues (change : Call → Client → Client → Prop) (asks : Call → Request → Prop)
    (s : Session) : Prop :=
  ∀ caller ∈ s.callers, caller.halt.Every (fun _ => True) (change caller.call) (asks caller.call)

namespace Session

variable {change : Call → Client → Client → Prop} {asks : Call → Request → Prop}

theorem Continues.turn {s : Session} (continues : s.Continues change asks)
    (every : ∀ call : Call, call.action.Every (fun _ => True) (change call) (asks call))
    {choice : Choice} {turn : Turn} (possible : s.turn? choice = some turn) :
    turn.course.Every (fun _ => True) (change turn.call) (asks turn.call) ∧
      ∀ caller ∈ turn.callers, caller ∈ s.callers := by
  refine course_of_turn (fun call x => x.Every _ (change call) (asks call)) every ?_ possible
  rintro ⟨call, since, halt⟩ isIn
  have every := continues _ isIn
  cases halt with
  | asking request next => exact every
  | waiting limit ready next => exact every

theorem continues_of_reachable
    (every : ∀ call : Call, call.action.Every (fun _ => True) (change call) (asks call))
    {allowed : Session → Turn → Prop} {config : Config} {seed : UInt32} {s : Session}
    (reachable : ReachableBy allowed config seed s) : s.Continues change asks := by
  induction reachable with
  | start => exact fun caller isIn => absurd isIn List.not_mem_nil
  | @turn s turn choice before possible allows continues =>
    obtain ⟨course, outer⟩ := continues.turn every possible
    intro caller isIn
    rcases turn.play_callers s.client with left | ⟨halt, left⟩
    · rw [left] at isIn
      exact continues caller (outer caller isIn)
    · rw [left] at isIn
      rcases List.mem_cons.mp isIn with rfl | isOuter
      · exact (turn.play_every (fun _ _ _ _ => trivial) course trivial).left halt left
      · exact continues caller (outer caller isOuter)

/-- All steps of a turn are of the sort of its call. -/
theorem outcome_of_reachable
    (every : ∀ call : Call, call.action.Every (fun _ => True) (change call) (asks call))
    {allowed : Session → Turn → Prop} {config : Config} {seed : UInt32} {s : Session}
    (reachable : ReachableBy allowed config seed s) {choice : Choice} {turn : Turn}
    (possible : s.turn? choice = some turn) :
    Outcome (fun _ => True) (change turn.call) (asks turn.call) turn (turn.play s.client) :=
  turn.play_every (fun _ _ _ _ => trivial)
    ((continues_of_reachable every reachable).turn every possible).1 trivial

theorem turn_history {s : Session} {choice : Choice} {turn : Turn}
    (possible : s.turn? choice = some turn) :
    ∃ front, turn.history = front ++ s.history ∧ ∀ r, .asked r ∉ front := by
  obtain ⟨c, callers, h⟩ := s
  cases choice with
  | call call =>
    cases possible
    exact ⟨[.called call], rfl, by simp⟩
  | answer how =>
    match callers, possible with
    | ⟨call, since, .asking request next⟩ :: callers, possible =>
      cases possible
      exact ⟨[.answered request (how request)], rfl, by simp⟩
  | goOn =>
    match callers, possible with
    | ⟨call, since, .waiting limit ready next⟩ :: callers, possible =>
      simp only [turn?] at possible
      split at possible <;> cases possible
      exact ⟨[], rfl, by simp⟩

/-- Whatever was ever asked is of the sort of some call. -/
theorem asked_of_reachable
    (every : ∀ call : Call, call.action.Every (fun _ => True) (change call) (asks call))
    {allowed : Session → Turn → Prop} {config : Config} {seed : UInt32} {s : Session}
    (reachable : ReachableBy allowed config seed s) {r : Request} (asked : .asked r ∈ s.history) :
    ∃ call, asks call r := by
  induction reachable with
  | start => exact absurd asked List.not_mem_nil
  | @turn s turn choice before possible allows earlier =>
    obtain ⟨-, ⟨new, history, sort⟩, -⟩ := outcome_of_reachable every before possible
    obtain ⟨front, begun, silent⟩ := turn_history possible
    rw [history, begun] at asked
    rcases List.mem_append.mp asked with isNew | asked
    · exact ⟨turn.call, sort _ isNew⟩
    rcases List.mem_append.mp asked with isFront | isEarlier
    · exact absurd isFront (silent r)
    · exact earlier isEarlier

end Session

/-! ### Strokes -/

/-- What a stroke is about. -/
inductive Concern where
  /-- The end of what is read. -/
  | ending
  /-- A message that came in. -/
  | message
  /-- Attempts to connect, the end of a connection, and who is told of them. -/
  | link
  /-- Reading messages, and who is given them. -/
  | reader
  | handshake
  deriving DecidableEq

/-- The changes of a client at a stroke, other than reading what arrived and taking or leaving the
gate. -/
inductive StrokeOf (c : Client) : Concern → Client → Prop
  | look : StrokeOf c .ending c
  | closeLocally (status : UInt16) : StrokeOf c .ending (c.closeLocally status).2
  | closeRemotely (body : Option CloseBody) : StrokeOf c .ending (c.closeRemotely body).2
  | enqueue (message : Message) : StrokeOf c .message (c.enqueue message)
  | beginConnect (key : HandshakeKey) (awaited : Bool) :
    StrokeOf c .link (c.beginConnect key awaited).2
  | abortConnect : StrokeOf c .link c.abortConnect
  | beginDisconnect : StrokeOf c .link c.beginDisconnect.2
  | beginClose (code : CloseCode) : StrokeOf c .link (c.beginClose code).2
  | disconnected : StrokeOf c .link c.disconnected.2
  | listen (listener : Listener) : StrokeOf c .link { c with listener := some listener }
  | dequeue : StrokeOf c .reader c.dequeue.2
  | deliverTo (receiver : Option String) : StrokeOf c .reader { c with receiver }
  | stopAwaiting : StrokeOf c .handshake c.stopAwaiting.2
  | judgeResponse (response : UpgradeResponse) :
    StrokeOf c .handshake (c.judgeResponse response).2
  | completeHandshake : StrokeOf c .handshake c.completeHandshake.2

/-- A stroke about one of some concerns. -/
inductive StrokeAmong (concerns : List Concern) (c c' : Client) : Prop
  | of {concern : Concern} (stroke : StrokeOf c concern c') (isAmong : concerns.contains concern)

theorem StrokeAmong.mono {few many : List Concern} (fewer : few.all many.contains)
    {c c' : Client} (stroke : StrokeAmong few c c') : StrokeAmong many c c' := by
  obtain ⟨stroke, isAmong⟩ := stroke
  exact .of stroke (List.all_eq_true.mp fewer _ (List.contains_iff_mem.mp isAmong))

abbrev Stroke : Client → Client → Prop :=
  StrokeAmong [.ending, .message, .link, .reader, .handshake]

/-- The strokes by which a client answers the end of what it reads. -/
abbrev ClosingStroke : Client → Client → Prop := StrokeAmong [.ending]

/-- The strokes by which a client acts on what it read. -/
abbrev Handled : Client → Client → Prop := StrokeAmong [.ending, .message]

/-- The strokes that have no part in the handshake, and leave alone the messages that wait and who
is given messages. -/
abbrev LinkStroke : Client → Client → Prop := StrokeAmong [.ending, .link]

/-- The strokes that leave alone the messages that wait and who is given messages. -/
abbrev ApartStroke : Client → Client → Prop := StrokeAmong [.ending, .link, .handshake]

/-- The strokes that neither judge a response, nor open the connection, nor give up waiting for
that. -/
abbrev Routine : Client → Client → Prop := StrokeAmong [.ending, .message, .link, .reader]

inductive GateStroke (c : Client) : Client → Prop
  | enterGate (consent : Client → Except Error Unit) (parcel : Parcel) :
    GateStroke c (c.enterGate consent parcel).2
  | leaveGate : GateStroke c c.leaveGate

def Change (c c' : Client) : Prop := Stroke c c' ∨ GateStroke c c'

/-- The changes of a client while it acts on what it read. -/
def Handling (c c' : Client) : Prop := Handled c c' ∨ GateStroke c c'

theorem StrokeAmong.stroke {concerns : List Concern} {c c' : Client}
    (stroke : StrokeAmong concerns c c') : Stroke c c' :=
  stroke.mono (List.all_eq_true.mpr fun concern _ => by cases concern <;> rfl)

theorem Handling.change {c c' : Client} (handling : Handling c c') : Change c c' :=
  handling.imp StrokeAmong.stroke id

theorem GateStroke.eq {c c' : Client} (stroke : GateStroke c c') :
    c' = { c with gate := c'.gate } := by
  cases stroke with
  | enterGate consent parcel =>
    cases granted : consent c <;> simp [Client.enterGate, Gate.emitIf, granted]
  | leaveGate => rfl

/-- No stroke touches the gate or the settings, of the client or of its decoder. -/
structure Untouched (c c' : Client) : Prop where
  gate : c'.gate = c.gate
  settings : c'.config = c.config
  reset : c'.decoder.reset = c.decoder.reset

theorem Stroke.untouched {c c' : Client} (stroke : Stroke c c') : Untouched c c' := by
  obtain ⟨stroke, -⟩ := stroke
  cases stroke with
  | beginConnect key awaited =>
    unfold Client.beginConnect
    split <;> exact ⟨rfl, rfl, rfl⟩
  | judgeResponse response =>
    unfold Client.judgeResponse
    repeat' (first | exact ⟨rfl, rfl, rfl⟩ | split)
  | completeHandshake =>
    unfold Client.completeHandshake
    repeat' (first | exact ⟨rfl, rfl, rfl⟩ | split)
  | beginDisconnect =>
    unfold Client.beginDisconnect
    split <;> exact ⟨rfl, rfl, rfl⟩
  | beginClose code =>
    unfold Client.beginClose
    repeat' (first | exact ⟨rfl, rfl, rfl⟩ | split)
  | _ => exact ⟨rfl, rfl, rfl⟩

/-- How the phase may change at a stroke. -/
inductive Phase.Follows : Phase → Phase → Prop
  | stays (p : Phase) : Follows p p
  | begins : Follows .closed .connecting
  | opens : Follows .connecting .opened
  | aborts : Follows .connecting .closingLocal
  | closes : Follows .opened .closingLocal
  | answers : Follows .opened .closingRemote
  | ends (p : Phase) : Follows p .closed

theorem Stroke.phase {c c' : Client} (stroke : Stroke c c') : c.phase.Follows c'.phase := by
  obtain ⟨config, ⟨phase, sent, received⟩, key, awaited, announced, rejected, response, decoder,
    halted, mailbox, gate, listener, receiver⟩ := c
  obtain ⟨stroke, -⟩ := stroke
  cases stroke with
  | beginConnect key awaited => cases phase <;> first | exact .begins | exact .stays _
  | abortConnect => cases phase <;> exact .ends _
  | judgeResponse response =>
    unfold Client.judgeResponse
    repeat' (first | exact .stays _ | split)
  | completeHandshake =>
    cases rejected <;> cases phase <;> first | exact .stays _ | exact .opens
  | closeLocally status =>
    cases phase <;> first | exact .stays _ | exact .closes | exact .aborts
  | beginDisconnect => cases phase <;> first | exact .stays _ | exact .closes | exact .aborts
  | beginClose code =>
    unfold Client.beginClose
    split
    · exact .stays _
    · cases phase <;> first | exact .stays _ | exact .closes
  | closeRemotely body => cases phase <;> first | exact .stays _ | exact .answers | exact .aborts
  | disconnected => cases phase <;> exact .ends _
  | _ => exact .stays _

end WebSocket
