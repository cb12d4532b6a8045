import WebSocket.Proofs.Session.Signals

/-!
# Handshakes in a history

What happened in the attempt under way can be read off a history: the key it began with, what
happened while it was connecting, and whether the listener is being told of a fault. `Verified` is
what a history should look like: a connection opens only at the end of a handshake in which nothing
went wrong (`Opening`), and just then the listener is told.
-/

namespace WebSocket

def phaseAfter : List Moment → Phase
  | [] => .closed
  | .changed _ after :: _ => after.phase
  | .called _ :: h | .asked _ :: h | .answered .. :: h | .returned _ :: h => phaseAfter h

/-- The key that the attempt under way began with. -/
def attemptKey : List Moment → Option HandshakeKey
  | [] => none
  | .changed before after :: h =>
    if Phase.signal? before.phase after.phase = some .begun then after.key else attemptKey h
  | .called _ :: h | .asked _ :: h | .answered .. :: h | .returned _ :: h => attemptKey h

/-- What happened while the attempt under way was connecting, latest first. -/
def handshake : List Moment → List Moment
  | [] => []
  | moment :: h =>
    if moment.signal? = some .begun then []
    else if phaseAfter h = .connecting then moment :: handshake h
    else handshake h

/-! ### What can go wrong -/

/-- The attempt is given up, or the transport says that it is down. -/
def Moment.isSetback : Moment → Bool
  | called .disconnect | called .disconnectAsync | called .transportDown => true
  | changed before after =>
    (after.phase != .connecting && after.phase != .opened) || (before.awaited && !after.awaited)
  | called _ | asked _ | answered .. | returned _ => false

def Notice.isError : Notice → Bool
  | error _ => true
  | connected _ | disconnected | ping _ | pong _ | close _ => false

def Moment.reportsFault : Moment → Bool
  | asked (.notify _ notice) => notice.isError
  | _ => false

/-- How many times the listener is being told of a fault and has not answered yet. -/
def telling : List Moment → Nat
  | [] => 0
  | .asked (.notify _ notice) :: h => if notice.isError then telling h + 1 else telling h
  | .answered (.notify _ notice) _ :: h => if notice.isError then telling h - 1 else telling h
  | _ :: h => telling h

/-- Every response that arrived during the handshake answers the key of the attempt. -/
def Accepted (h : List Moment) : Prop :=
  ∀ response, .called (.responseArrived response) ∈ handshake h →
    ∃ key, attemptKey h = some key ∧ response.validate key = .ok ()

/-- A connection may open after a handshake in which every response was accepted, nobody gave the
attempt up and no fault occurred, unless the listener is still being told of it. -/
structure Opening (before after : Client) (h : List Moment) : Prop where
  connecting : phaseAfter h = .connecting ∧ before.phase = .connecting
  opened : after.phase = .opened
  accepted : Accepted h
  response : ∀ response, before.response = some response →
    .called (.responseArrived response) ∈ handshake h
  unspoiled : ∀ moment ∈ handshake h, moment.isSetback = false
  faulted : (∃ moment ∈ handshake h, moment.reportsFault) → 0 < telling h

/-- A connection opens, or the listener is told that it did. -/
def Moment.isOpening : Moment → Bool
  | changed before after => Phase.signal? before.phase after.phase == some .opened
  | asked (.notify _ (.connected _)) => true
  | _ => false

/-- Connections open only when the transport reports that a handshake is complete, and a listener is
told then and only then. -/
inductive Verified : List Moment → Prop
  | nil : Verified []
  | other {moment : Moment} {h : List Moment} (earlier : Verified h)
    (other : moment.isOpening = false) : Verified (moment :: h)
  | unheard {before after : Client} {h : List Moment} (earlier : Verified h)
    (opening : Opening before after h) (nobody : after.listener = none) :
    Verified (.changed after after :: .changed before after :: .called .handshakeCompleted :: h)
  | heard {before after : Client} {h : List Moment} {listener : Listener} (earlier : Verified h)
    (opening : Opening before after h) (somebody : after.listener = some listener) :
    Verified (.asked (.notify listener (.connected before.response)) :: .changed after after ::
      .changed before after :: .called .handshakeCompleted :: h)

/-! ### One more moment -/

def Moment.isChange : Moment → Bool
  | changed .. => true
  | called _ | asked _ | answered .. | returned _ => false

/-- A moment at which nothing opens, no response arrives and no state changes. -/
structure Moment.Still (moment : Moment) : Prop where
  same : moment.isChange = false
  unopened : moment.isOpening = false
  unanswered : ∀ response, moment ≠ called (.responseArrived response)

/-- A moment with no part in the handshake. -/
structure Moment.Quiet (moment : Moment) : Prop extends moment.Still where
  unspoiled : moment.isSetback = false
  unreported : moment.reportsFault = false
  told : ∀ h, telling (moment :: h) = telling h

theorem phaseAfter_cons {moment : Moment} (same : moment.isChange = false) (h : List Moment) :
    phaseAfter (moment :: h) = phaseAfter h := by
  cases moment <;> first | rfl | cases same

theorem attemptKey_cons {moment : Moment} (same : moment.isChange = false) (h : List Moment) :
    attemptKey (moment :: h) = attemptKey h := by
  cases moment <;> first | rfl | cases same

theorem Moment.signal?_ne_begun {moment : Moment} (same : moment.isChange = false) :
    moment.signal? ≠ some .begun := by
  cases moment with
  | changed before after => cases same
  | asked request => simp [Moment.signal?]
  | called call | answered request answer | returned reply => simp [Moment.signal?]

theorem signal?_of_same {c c' : Client} (same : c'.phase = c.phase) :
    (Moment.changed c c').signal? ≠ some .begun := by
  rw [Moment.signal?, same, Phase.signal?_self]
  exact (Option.some_ne_none _).symm

theorem isOpening_of_same {c c' : Client} (same : c'.phase = c.phase) :
    (Moment.changed c c').isOpening = false := by
  rw [Moment.isOpening, same, Phase.signal?_self]
  rfl

theorem handshake_cons {moment : Moment} (goesOn : moment.signal? ≠ some .begun)
    (h : List Moment) :
    handshake (moment :: h) =
      if phaseAfter h = .connecting then moment :: handshake h else handshake h := by
  rw [handshake, if_neg goesOn]

theorem mem_handshake_cons {moment m : Moment} (goesOn : m.signal? ≠ some .begun)
    {h : List Moment} :
    moment ∈ handshake (m :: h) →
      (moment = m ∧ phaseAfter h = .connecting) ∨ moment ∈ handshake h := by
  rw [handshake_cons goesOn]
  split
  · rename_i connecting
    intro isIn
    rcases List.mem_cons.mp isIn with rfl | isEarlier
    · exact .inl ⟨rfl, connecting⟩
    · exact .inr isEarlier
  · exact .inr

theorem handshake_subset {m : Moment} (goesOn : m.signal? ≠ some .begun) (h : List Moment) :
    handshake h ⊆ handshake (m :: h) := by
  rw [handshake_cons goesOn]
  split
  · exact List.subset_cons_self _ _
  · exact List.Subset.refl _

theorem reported_of_cons {m : Moment} (goesOn : m.signal? ≠ some .begun)
    (unreported : m.reportsFault = false) {h : List Moment}
    (faulted : ∃ moment ∈ handshake (m :: h), moment.reportsFault) :
    ∃ moment ∈ handshake h, moment.reportsFault := by
  obtain ⟨moment, isIn, reports⟩ := faulted
  rcases mem_handshake_cons goesOn isIn with ⟨rfl, -⟩ | isEarlier
  · rw [unreported] at reports
    cases reports
  · exact ⟨moment, isEarlier, reports⟩

theorem Accepted.cons {h : List Moment} (accepted : Accepted h) {m : Moment}
    (goesOn : m.signal? ≠ some .begun) (key : attemptKey (m :: h) = attemptKey h)
    (other : ∀ response, m ≠ .called (.responseArrived response)) : Accepted (m :: h) := by
  intro response isIn
  rcases mem_handshake_cons goesOn isIn with ⟨same, -⟩ | isEarlier
  · exact absurd same.symm (other response)
  · rw [key]
    exact accepted response isEarlier

theorem Accepted.response {h : List Moment} (accepted : Accepted h) {response : UpgradeResponse}
    (valid : phaseAfter h = .connecting →
      ∃ key, attemptKey h = some key ∧ response.validate key = .ok ()) :
    Accepted (.called (.responseArrived response) :: h) := by
  intro other isIn
  rcases mem_handshake_cons (Moment.signal?_ne_begun rfl) isIn with ⟨same, connecting⟩ | isEarlier
  · cases same
    exact valid connecting
  · exact accepted other isEarlier

end WebSocket
