import WebSocket.Proofs.Session.Halts
import WebSocket.Proofs.Session.Legal
import WebSocket.Proofs.Session.Rejection

/-!
# Readers of a closed connection

The mailbox lets readers wait exactly while there is a connection (`InStep`): each stroke that
begins or ends one opens or closes it. So nobody waits on a dead connection. Whoever reads gets what
is left and then nothing, and so does who was waiting; and what still arrives is passed over.
-/

namespace WebSocket

open WebSocket.Action

/-! ### What is left of the messages -/

/-- What is left of a client when a reader took the oldest message. -/
def Client.oldestTaken (c : Client) : Client :=
  { c with mailbox := { c.mailbox with messages := c.mailbox.messages.tail } }

theorem Client.dequeue_eq (c : Client) :
    c.dequeue = (c.mailbox.messages.head?, c.oldestTaken) := by
  obtain ⟨config, negotiation, key, awaited, announced, rejected, response, decoder, halted,
    ⟨messages, isClosed⟩, gate, listener, receiver⟩ := c
  cases messages <;> rfl

/-! ### The mailbox and the connection -/

/-- The mailbox is closed exactly while there is no connection. -/
def Client.InStep (c : Client) : Prop := c.mailbox.isClosed = true ↔ c.phase = .closed

theorem Client.InStep.of_same {c c' : Client} (inStep : c.InStep)
    (mailbox : c'.mailbox.isClosed = c.mailbox.isClosed)
    (phase : c'.phase = .closed ↔ c.phase = .closed) : c'.InStep := by
  unfold Client.InStep
  rw [mailbox, phase]
  exact inStep

theorem Stroke.inStep {c c' : Client} (stroke : Stroke c c') (inStep : c.InStep) : c'.InStep := by
  obtain ⟨config, ⟨phase, sent, received⟩, key, awaited, announced, rejected, response, decoder,
    halted, mailbox, gate, listener, receiver⟩ := c
  obtain ⟨stroke, -⟩ := stroke
  cases stroke with
  | beginConnect key awaited => cases phase <;> first | exact inStep | exact ⟨nofun, nofun⟩
  | abortConnect => cases phase <;> exact ⟨fun _ => rfl, fun _ => rfl⟩
  | disconnected => cases phase <;> exact ⟨fun _ => rfl, fun _ => rfl⟩
  | judgeResponse response =>
    unfold Client.judgeResponse
    repeat' (first | exact inStep | split)
  | completeHandshake =>
    cases rejected <;> cases phase <;>
      first | exact inStep | exact inStep.of_same rfl ⟨nofun, nofun⟩
  | closeLocally status =>
    cases phase <;> first | exact inStep | exact inStep.of_same rfl ⟨nofun, nofun⟩
  | beginDisconnect =>
    cases phase <;> first | exact inStep | exact inStep.of_same rfl ⟨nofun, nofun⟩
  | beginClose code =>
    unfold Client.beginClose
    split
    · exact inStep
    · cases phase <;> first | exact inStep | exact inStep.of_same rfl ⟨nofun, nofun⟩
  | closeRemotely body =>
    cases phase <;> first | exact inStep | exact inStep.of_same rfl ⟨nofun, nofun⟩
  | dequeue =>
    rw [Client.dequeue_eq]
    exact inStep
  | look | stopAwaiting | enqueue | listen | deliverTo => exact inStep

theorem Advance.inStep {c c' : Client} (advance : Advance c c') (inStep : c.InStep) :
    c'.InStep := by
  cases advance with
  | stroke stroke => exact stroke.inStep inStep
  | absorb data =>
    rw [Client.absorb_eq]
    exact inStep

theorem Call.every_inStep (call : Call) :
    call.action.Every (fun _ => True) (fun c c' => c.InStep → c'.InStep) fun _ => True := by
  have gate : ∀ c c', GateStroke c c' → c.InStep → c'.InStep := by
    intro c c' stroke inStep
    rw [stroke.eq]
    exact inStep
  exact call.composed.every (fun _ _ => Advance.inStep) (fun _ => id) (fun _ _ => gate)
    (fun _ _ => trivial) (fun _ _ => trivial) fun _ _ _ _ _ => trivial

theorem inStep_of_reachable {allowed : Session → Turn → Prop} {config : Config} {seed : UInt32}
    {s : Session} (reachable : Session.ReachableBy allowed config seed s) : s.client.InStep := by
  induction reachable with
  | start => exact ⟨fun _ => rfl, fun _ => rfl⟩
  | @turn s turn choice before possible allows inStep =>
    have course := ((Session.continues_of_reachable Call.every_inStep before).turn
      Call.every_inStep possible).1
    exact (turn.play_every (fun _ _ inStep keeps => keeps inStep)
      (course.mono (fun _ _ => trivial) (fun _ _ => id) fun _ => id) inStep).client

/-! ### Readers -/

/-- A reader took the oldest message, or learned that there is none. -/
def Session.handOut (limit : Option Duration) (s : Session) : Session :=
  let ⟨c, callers, h⟩ := s
  ⟨c.oldestTaken, callers, .returned (.message c.mailbox.messages.head?) ::
    .changed c c.oldestTaken :: .changed c c :: .called (.receive limit) :: h⟩

theorem play_of_ready {s : Session} (ready : s.client.mailbox.isReady = true)
    {limit : Option Duration} {turn : Turn}
    (possible : s.turn? (.call (.receive limit)) = some turn) :
    turn.play s.client = s.handOut limit := by
  cases possible
  show (if s.client.mailbox.isReady then _ else _) = _
  rw [if_pos ready]
  show Session.mk s.client.dequeue.2 s.callers (.returned (.message s.client.dequeue.1) ::
    .changed s.client s.client.dequeue.2 :: _) = _
  rw [Client.dequeue_eq]
  rfl

/-- A reader waits until the mailbox is ready and then takes what is there. -/
def Halt.Reads (halt : Halt) : Prop :=
  ∃ limit, halt =
    .waiting limit (fun c => c.mailbox.isReady) (Reply.message <$> step Client.dequeue)

theorem Call.halts_reads (call : Call) :
    call.action.Halts fun halt => ∀ limit, call = .receive limit → halt.Reads := by
  cases call with
  | receive limit =>
    intro c
    exact ⟨fun _ _ => ⟨_, rfl⟩, fun _ => trivial⟩
  | _ => exact halts_of_all (fun _ _ => nofun) _

theorem reads_of_waiting {allowed : Session → Turn → Prop} {config : Config} {seed : UInt32}
    {s : Session} (reachable : Session.ReachableBy allowed config seed s) :
    ∀ caller ∈ s.callers, ∀ limit, caller.call = .receive limit → caller.halt.Reads :=
  fun caller isIn => (Session.halts_of_reachable Call.halts_reads reachable caller isIn).1

/-- The mailbox is closed exactly while there is no connection. Once there is none, whoever reads
or was reading gets the oldest message that is left, if any, without waiting, and bytes that arrive
have no effect. -/
theorem readers_of_reachable {config : Config} {seed : UInt32} {s : Session}
    (reachable : Session.Reachable config seed s) :
    (s.client.mailbox.isClosed = true ↔ s.client.phase = .closed) ∧
      (s.client.phase = .closed →
        (∀ limit, (s.turn? (.call (.receive limit))).map (fun turn => turn.play s.client) =
          some (s.handOut limit)) ∧
        (∀ limit since halt callers, s.callers = ⟨.receive limit, since, halt⟩ :: callers →
          (s.turn? .goOn).map (fun turn => turn.play s.client) =
            some ⟨s.client.oldestTaken, callers,
              .returned (.message s.client.mailbox.messages.head?) ::
                .changed s.client s.client.oldestTaken :: s.history⟩) ∧
        ∀ data, (s.turn? (.call (.bytesArrived data))).map (fun turn => turn.play s.client) =
          some (s.passOver data)) := by
  have inStep := inStep_of_reachable reachable
  refine ⟨inStep, fun closed => ?_⟩
  have ready : s.client.mailbox.isReady = true := by
    rw [Mailbox.isReady, inStep.mpr closed, Bool.or_true]
  refine ⟨fun limit => ?_, fun limit since halt callers waits => ?_, fun data => ?_⟩
  · exact congrArg some (play_of_ready ready rfl)
  · obtain ⟨bound, reads⟩ := reads_of_waiting reachable ⟨.receive limit, since, halt⟩
      (by rw [waits]; exact List.mem_cons_self) limit rfl
    subst reads
    obtain ⟨c, callers', h⟩ := s
    obtain rfl : callers' = _ := waits
    simp only [Session.turn?, ready, Bool.true_or, if_true, Option.map_some]
    show some (Session.mk c.dequeue.2 callers (.returned (.message c.dequeue.1) ::
      .changed c c.dequeue.2 :: h)) = _
    rw [Client.dequeue_eq]
  · exact congrArg some (play_of_idle (.inl closed) rfl)

/-- A reader waits, a message arrives before it goes on, and the connection is lost. -/
def readerCutOff : List Choice :=
  openConnection ++ [.call (.receive none), .call (.bytesArrived [0x81, 0x02, 0x68, 0x69]),
    .call .transportDown]

theorem readers_of_reachable_cutOff :
    ∃ s since halt, Session.after readerCutOff (.ofConfig {} 0) = some s ∧
      s.client.phase = .closed ∧ s.client.mailbox = ⟨[.text "hi"], true⟩ ∧
      s.callers = [⟨.receive none, since, halt⟩] ∧
      (s.turn? (.call (.receive none))).map (fun turn => turn.play s.client) =
        some (s.handOut none) ∧
      (s.turn? .goOn).map (fun turn => turn.play s.client) =
        some ⟨s.client.oldestTaken, [], .returned (.message (some (.text "hi"))) ::
          .changed s.client s.client.oldestTaken :: s.history⟩ := by
  have played : (Session.after readerCutOff (.ofConfig {} 0)).map (fun s =>
      (s.client.phase, s.client.mailbox, s.callers.map Caller.call)) =
      some (.closed, ⟨[.text "hi"], true⟩, [.receive none]) := by
    decide +kernel
  obtain ⟨s, made, told⟩ := Option.map_eq_some_iff.mp played
  simp only [Prod.mk.injEq, List.map_eq_singleton_iff] at told
  obtain ⟨closed, mailbox, ⟨call, since, halt⟩, waits, rfl : call = _⟩ := told
  obtain ⟨-, dead⟩ := readers_of_reachable (.after .start made)
  obtain ⟨hands, ends, -⟩ := dead closed
  refine ⟨s, since, halt, made, closed, mailbox, waits, hands none, ?_⟩
  rw [ends none since halt [] waits, mailbox]
  rfl

end WebSocket
