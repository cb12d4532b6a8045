import WebSocket.Proofs.Session.Course
import WebSocket.Proofs.Session.Handshake

/-!
# What a client knows of its handshake

What a client knows of the handshake is spread over its phase, its key, the response it keeps and
the mark that one was rejected; `Vouched` ties them to what happened. A call that finds a fault
tells the listener before it ends the attempt. Until it ends it the attempt is unresolved, and every
other call leaves it so (`vouching`). Actions with no part in the handshake do theirs
(`Action.Routinely.vouches`).
-/

namespace WebSocket

open WebSocket.Action

/-! ### What the client knows of a handshake -/

/-- What a connecting client knows of the handshake under way. -/
structure Handshaking (c : Client) (h : List Moment) : Prop where
  key : ∃ key, c.key = some key ∧ attemptKey h = some key
  response : ∀ response, c.response = some response →
    .called (.responseArrived response) ∈ handshake h
  unspoiled : ∀ moment ∈ handshake h, moment.isSetback = false
  told : c.rejected = false → (∃ moment ∈ handshake h, moment.reportsFault) → 0 < telling h

/-- What a client knows of the last handshake, be it over or given up. -/
structure Recorded (c : Client) (h : List Moment) : Prop where
  verified : Verified h
  phase : phaseAfter h = c.phase
  accepted : c.rejected = false → Accepted h
  rejected : c.rejected = true → c.phase ≠ .opened ∧ c.phase ≠ .closingRemote

structure Vouched (c : Client) (h : List Moment) : Prop extends Recorded c h where
  connecting : c.phase = .connecting → Handshaking c h

/-- A fault occurred in the handshake under way, and the attempt has not been ended for it. -/
def Unresolved (c : Client) (h : List Moment) : Prop :=
  c.phase = .connecting ∧ c.rejected = false ∧ ∃ moment ∈ handshake h, moment.reportsFault

/-- A call that told the listener of a fault resolves it. -/
def vouching : Duty where
  holds := Vouched
  keeps c h c' h' := telling h' = telling h ∧ (Unresolved c' h' → Unresolved c h)
  refl _ _ := ⟨rfl, id⟩
  trans first later := ⟨later.1.trans first.1, fun unresolved => first.2 (later.2 unresolved)⟩

/-! ### Changes -/

/-- A change with no part in the handshake: an attempt begins anew, goes on or is left. -/
inductive Uneventful (c c' : Client) : Prop
  | begins (closed : c.phase = .closed) (connecting : c'.phase = .connecting)
    (key : c'.key.isSome) (unrejected : c'.rejected = false) (unanswered : c'.response = none)
  | goesOn (phase : c'.phase = c.phase) (rejected : c'.rejected = c.rejected)
    (same : c.phase = .connecting →
      c'.key = c.key ∧ c'.response = c.response ∧ c'.awaited = c.awaited)
  | leaves (follows : c.phase.Follows c'.phase) (rejected : c'.rejected = c.rejected)
    (left : c'.phase ≠ .connecting) (unopened : c'.phase ≠ .opened)

theorem Routine.uneventful {c c' : Client} (routine : Routine c c') : Uneventful c c' := by
  have follows := routine.stroke.phase
  obtain ⟨config, ⟨phase, sent, received⟩, key, awaited, announced, rejected, response, decoder,
    halted, mailbox, gate, listener, receiver⟩ := c
  obtain ⟨stroke, isAmong⟩ := routine
  cases stroke with
  | closeLocally status =>
    cases phase <;> first
      | exact .goesOn rfl rfl fun _ => ⟨rfl, rfl, rfl⟩
      | exact .leaves follows rfl nofun nofun
  | closeRemotely body =>
    cases phase <;> first
      | exact .goesOn rfl rfl fun _ => ⟨rfl, rfl, rfl⟩
      | exact .leaves follows rfl nofun nofun
  | beginConnect key awaited =>
    cases phase <;> first
      | exact .begins rfl rfl rfl rfl rfl
      | exact .goesOn rfl rfl fun _ => ⟨rfl, rfl, rfl⟩
  | abortConnect => cases phase <;> exact .leaves follows rfl nofun nofun
  | beginDisconnect =>
    cases phase <;> first
      | exact .goesOn rfl rfl fun _ => ⟨rfl, rfl, rfl⟩
      | exact .leaves follows rfl nofun nofun
  | beginClose code =>
    unfold Client.beginClose at follows ⊢
    cases allowed : code.isAllowed <;> cases phase <;> simp only [allowed] at follows ⊢ <;> first
      | exact .goesOn rfl rfl fun _ => ⟨rfl, rfl, rfl⟩
      | exact .leaves follows rfl nofun nofun
  | disconnected => cases phase <;> exact .leaves follows rfl nofun nofun
  | look | enqueue | dequeue | listen | deliverTo =>
    exact .goesOn rfl rfl fun _ => ⟨rfl, rfl, rfl⟩
  | stopAwaiting | judgeResponse | completeHandshake => cases isAmong

theorem GateStroke.uneventful {c c' : Client} (stroke : GateStroke c c') : Uneventful c c' := by
  rw [stroke.eq]
  exact .goesOn rfl rfl fun _ => ⟨rfl, rfl, rfl⟩

theorem Client.uneventful_absorb (data : Bytes) (c : Client) : Uneventful c (c.absorb data).2 := by
  rw [absorb_eq]
  exact .goesOn rfl rfl fun _ => ⟨rfl, rfl, rfl⟩

theorem Uneventful.unopened {c c' : Client} (uneventful : Uneventful c c') :
    (Moment.changed c c').isOpening = false := by
  cases uneventful with
  | begins closed connecting =>
    rw [Moment.isOpening, closed, connecting]
    rfl
  | goesOn phase => exact isOpening_of_same phase
  | leaves _ _ _ unopened =>
    rw [Moment.isOpening, beq_eq_false_iff_ne]
    exact Phase.signal?_ne_opened unopened

theorem handshake_begun {c c' : Client} (begun : Phase.signal? c.phase c'.phase = some .begun)
    (h : List Moment) : handshake (.changed c c' :: h) = [] := if_pos begun

theorem Recorded.goesOn {c c' : Client} {h : List Moment} (recorded : Recorded c h)
    (goesOn : (Moment.changed c c').signal? ≠ some .begun)
    (unopened : (Moment.changed c c').isOpening = false) (same : c'.rejected = c.rejected)
    (rejected : c.phase ≠ .opened ∧ c.phase ≠ .closingRemote →
      c'.phase ≠ .opened ∧ c'.phase ≠ .closingRemote) : Recorded c' (.changed c c' :: h) :=
  ⟨.other recorded.verified unopened, rfl,
    fun unrejected => (recorded.accepted (same.symm.trans unrejected)).cons goesOn
      (if_neg goesOn) nofun,
    fun isRejected => rejected (recorded.rejected (same.symm.trans isRejected))⟩

theorem Recorded.change {c c' : Client} {h : List Moment} (recorded : Recorded c h)
    (uneventful : Uneventful c c') : Recorded c' (.changed c c' :: h) := by
  have unopened := uneventful.unopened
  cases uneventful with
  | begins closed connecting _ unrejected =>
    have begun : Phase.signal? c.phase c'.phase = some .begun := by rw [closed, connecting]; rfl
    refine ⟨.other recorded.verified unopened, rfl, fun _ response isIn => ?_, fun rejected => ?_⟩
    · rw [handshake_begun begun] at isIn
      cases isIn
    · rw [unrejected] at rejected
      cases rejected
  | goesOn phase same => exact recorded.goesOn (signal?_of_same phase) unopened same (phase ▸ id)
  | leaves follows same left notOpen =>
    refine recorded.goesOn (Phase.signal?_ne_begun (.inr left)) unopened same
      fun ⟨wasNotOpen, wasNotAnswered⟩ => ⟨notOpen, fun answered => ?_⟩
    rw [answered] at follows
    generalize c.phase = p at *
    cases follows with
    | stays => exact wasNotAnswered rfl
    | answers => exact wasNotOpen rfl

theorem Handshaking.more {c c' : Client} {h : List Moment} (handshaking : Handshaking c h)
    {m : Moment} (goesOn : m.signal? ≠ some .begun) (attempt : attemptKey (m :: h) = attemptKey h)
    (key : c'.key = c.key) (response : c'.response = c.response) (unspoiled : m.isSetback = false)
    (told : c'.rejected = false → (∃ moment ∈ handshake (m :: h), moment.reportsFault) →
      0 < telling (m :: h)) : Handshaking c' (m :: h) := by
  refine ⟨?_, ?_, ?_, told⟩
  · rw [key, attempt]
    exact handshaking.key
  · rw [response]
    exact fun r isResponse => handshake_subset goesOn h (handshaking.response r isResponse)
  · intro moment isIn
    rcases mem_handshake_cons goesOn isIn with ⟨rfl, -⟩ | isEarlier
    · exact unspoiled
    · exact handshaking.unspoiled moment isEarlier

theorem Handshaking.cons {c c' : Client} {h : List Moment} (handshaking : Handshaking c h)
    {m : Moment} (goesOn : m.signal? ≠ some .begun) (attempt : attemptKey (m :: h) = attemptKey h)
    (key : c'.key = c.key) (rejected : c'.rejected = c.rejected)
    (response : c'.response = c.response) (unspoiled : m.isSetback = false)
    (unreported : m.reportsFault = false) (told : telling (m :: h) = telling h) :
    Handshaking c' (m :: h) := by
  refine handshaking.more goesOn attempt key response unspoiled fun unrejected faulted => ?_
  rw [told]
  exact handshaking.told (rejected.symm.trans unrejected)
    (reported_of_cons goesOn unreported faulted)

theorem keeps_changed {c c' : Client} {h : List Moment} (phase : c'.phase = c.phase)
    (unrejected : c'.rejected = false → c.rejected = false) :
    vouching.keeps c h c' (.changed c c' :: h) :=
  ⟨rfl, fun ⟨connecting, notRejected, faulted⟩ => ⟨phase.symm.trans connecting,
    unrejected notRejected, reported_of_cons (signal?_of_same phase) rfl faulted⟩⟩

theorem Vouched.change {c c' : Client} {h : List Moment} (vouched : Vouched c h)
    (uneventful : Uneventful c c') :
    Vouched c' (.changed c c' :: h) ∧ vouching.keeps c h c' (.changed c c' :: h) := by
  have recorded := vouched.toRecorded.change uneventful
  cases uneventful with
  | begins closed connecting key unrejected unanswered =>
    have begun : Phase.signal? c.phase c'.phase = some .begun := by rw [closed, connecting]; rfl
    have nothing := handshake_begun begun h
    refine ⟨⟨recorded, fun _ => ⟨?_, ?_, ?_, ?_⟩⟩, rfl, ?_⟩
    · obtain ⟨key, isKey⟩ := Option.isSome_iff_exists.mp key
      exact ⟨key, isKey, (if_pos begun).trans isKey⟩
    · simp [unanswered]
    · simp [nothing]
    · simp [nothing]
    · rintro ⟨-, -, moment, isIn, -⟩
      rw [nothing] at isIn
      cases isIn
  | goesOn phase rejected same =>
    have goesOn := signal?_of_same phase
    refine ⟨⟨recorded, fun connecting => ?_⟩, rfl, ?_⟩
    · have before := phase.symm.trans connecting
      obtain ⟨key, response, awaited⟩ := same before
      have unspoiled : (Moment.changed c c').isSetback = false := by
        simp [Moment.isSetback, connecting, awaited]
      exact (vouched.connecting before).cons goesOn (if_neg goesOn) key rejected response unspoiled
        rfl rfl
    · exact (keeps_changed phase rejected.symm.trans).2
  | leaves _ _ left =>
    exact ⟨⟨recorded, fun connecting => absurd connecting left⟩, rfl,
      fun unresolved => absurd unresolved.1 left⟩

/-- Whatever went wrong, leaving the attempt mends it. -/
theorem Recorded.leave {c c' : Client} {h : List Moment} (recorded : Recorded c h)
    (uneventful : Uneventful c c') (left : c'.phase ≠ .connecting) :
    Vouched c' (.changed c c' :: h) :=
  ⟨recorded.change uneventful, fun connecting => absurd connecting left⟩

/-! ### Other moments -/

theorem Recorded.still {c : Client} {h : List Moment} (recorded : Recorded c h) {moment : Moment}
    (still : moment.Still) : Recorded c (moment :: h) :=
  ⟨.other recorded.verified still.unopened, (phaseAfter_cons still.same h).trans recorded.phase,
    fun unrejected => (recorded.accepted unrejected).cons (Moment.signal?_ne_begun still.same)
      (attemptKey_cons still.same h) still.unanswered, recorded.rejected⟩

theorem Vouched.quiet {c : Client} {h : List Moment} (vouched : Vouched c h) {moment : Moment}
    (quiet : moment.Quiet) :
    Vouched c (moment :: h) ∧ vouching.keeps c h c (moment :: h) := by
  have goesOn := Moment.signal?_ne_begun quiet.same
  refine ⟨⟨vouched.toRecorded.still quiet.toStill, fun connecting => ?_⟩, quiet.told h, ?_⟩
  · exact (vouched.connecting connecting).cons goesOn (attemptKey_cons quiet.same h) rfl rfl rfl
      quiet.unspoiled quiet.unreported (quiet.told h)
  · rintro ⟨connecting, unrejected, faulted⟩
    exact ⟨connecting, unrejected, reported_of_cons goesOn quiet.unreported faulted⟩

/-! ### Requests -/

/-- A request that tells a listener neither of an opening nor of a fault. -/
def Request.isQuiet : Request → Bool
  | notify _ (.connected _) => false
  | notify _ notice => !notice.isError
  | _ => true

theorem Request.isQuiet_of_isRoutine {r : Request} (routine : r.isRoutine) : r.isQuiet := by
  cases r with
  | notify listener notice => cases notice <;> first | rfl | cases routine
  | _ => rfl

theorem Request.isQuiet_of_frame {r : Request} {frame : Bytes} (isFrame : r.frame? = some frame) :
    r.isQuiet := by
  cases r <;> first | rfl | cases isFrame

theorem Moment.quiet_asked {r : Request} (quiet : r.isQuiet) : (asked r).Quiet := by
  cases r with
  | notify listener notice =>
    cases notice <;> first
      | exact ⟨⟨rfl, rfl, nofun⟩, rfl, rfl, fun _ => rfl⟩
      | cases quiet
  | _ => exact ⟨⟨rfl, rfl, nofun⟩, rfl, rfl, fun _ => rfl⟩

theorem Moment.quiet_answered {r : Request} (untold : ∀ listener e, r ≠ .notify listener (.error e))
    (answer : r.Answer) : (answered r answer).Quiet := by
  cases r with
  | notify listener notice =>
    cases notice <;> first
      | exact ⟨⟨rfl, rfl, nofun⟩, rfl, rfl, fun _ => rfl⟩
      | exact absurd rfl (untold _ _)
  | _ => exact ⟨⟨rfl, rfl, nofun⟩, rfl, rfl, fun _ => rfl⟩

theorem tolerates_vouching : Tolerates vouching Uneventful fun r => r.isQuiet := by
  refine ⟨?_, ?_, ?_⟩
  · exact fun vouched uneventful => vouched.change uneventful
  · exact fun vouched quiet => vouched.quiet (Moment.quiet_asked quiet)
  · intro c h r answer vouched quiet
    refine vouched.quiet (Moment.quiet_answered ?_ answer)
    rintro listener e rfl
    cases quiet

theorem vouches_of_every {α : Type} {x : Action α}
    (every : x.Every (fun _ => True) Uneventful fun r => r.isQuiet) : x.Does vouching Vouched :=
  does_of_every tolerates_vouching every

/-! ### Faults -/

/-- While the listener is being told, a fault is excused. -/
theorem Vouched.tell {c : Client} {h : List Moment} (vouched : Vouched c h) (listener : Listener)
    (e : Error) : Vouched c (.asked (.notify listener (.error e)) :: h) := by
  have still : (Moment.asked (.notify listener (.error e))).Still := ⟨rfl, rfl, nofun⟩
  refine ⟨vouched.toRecorded.still still, fun connecting => ?_⟩
  exact (vouched.connecting connecting).more (Moment.signal?_ne_begun still.same) rfl rfl rfl rfl
    fun _ _ => Nat.succ_pos _

/-- Once the listener has been told, a fault is no longer excused, unless a response was rejected
before. -/
theorem assures_notify_error {e : Error} {c : Client} {h : List Moment} (vouched : Vouched c h) :
    (Client.notify (.error e)).Assures vouching
      (fun _ c' h' => Recorded c' h' ∧ telling h' = telling h ∧
        (c.rejected = true → Vouched c' h' ∧ ¬Unresolved c' h')) c h := by
  refine assures_bind.mpr (assures_get.mpr ?_)
  obtain ⟨looked, -⟩ := vouched.change (.goesOn rfl rfl fun _ => ⟨rfl, rfl, rfl⟩)
  have never : ∀ {h' : List Moment}, c.rejected = true → ¬Unresolved c h' := by
    rintro h' rejected ⟨-, unrejected, -⟩
    rw [rejected] at unrejected
    cases unrejected
  cases c.listener with
  | none => exact ⟨looked.toRecorded, rfl, fun rejected => ⟨looked, never rejected⟩⟩
  | some listener =>
    -- Others keep the number of tellings, and what is unresolved after they had control was so
    -- before.
    refine ⟨looked.tell listener e, fun _ c' h' vouched' kept => ?_⟩
    have still : (Moment.answered (.notify listener (.error e)) ()).Still := ⟨rfl, rfl, nofun⟩
    have goesOn := Moment.signal?_ne_begun still.same
    have recorded := vouched'.toRecorded.still still
    refine ⟨recorded, ?_, fun rejected => ?_⟩
    · show telling h' - 1 = telling h
      rw [kept.1]
      rfl
    · have resolved : ¬Unresolved c' (.answered (.notify listener (.error e)) () :: h') :=
        fun ⟨connecting, unrejected, faulted⟩ => never rejected
          (kept.2 ⟨connecting, unrejected, reported_of_cons goesOn rfl faulted⟩)
      refine ⟨⟨recorded, fun connecting => ?_⟩, resolved⟩
      exact (vouched'.connecting connecting).more goesOn rfl rfl rfl rfl
        fun unrejected faulted => absurd ⟨connecting, unrejected, faulted⟩ resolved

theorem does_fault {β : Type} {e : Error} {f : Client → β × Client}
    (strokes : ∀ c, Routine c (f c).2) (leaves : ∀ c, (f c).2.phase ≠ .connecting) :
    (Client.notify (.error e) >>= fun _ => step f).Does vouching Vouched := by
  intro c h vouched
  refine assures_bind.mpr ((assures_notify_error vouched).mono ?_)
  rintro _ c' h' ⟨recorded, told, -⟩
  exact assures_step.mpr ⟨recorded.leave (strokes c').uneventful (leaves c'), told,
    fun unresolved => absurd unresolved.1 (leaves c')⟩

theorem suits_vouching (sends : Parcel → Prop) :
    vouching.Suits Routine (fun r => r.isRoutine) sends where
  changed vouched stroke := vouched.change stroke.uneventful
  asked vouched routine := tolerates_vouching.asked vouched (Request.isQuiet_of_isRoutine routine)
  answered answer vouched routine :=
    tolerates_vouching.answered answer vouched (Request.isQuiet_of_isRoutine routine)
  gate _ handsOver := vouches_of_every (every_throughGate (fun _ _ => GateStroke.uneventful)
    handsOver fun _ _ => Request.isQuiet_of_frame)
  fault := does_fault

theorem Action.Routinely.vouches {α : Type} {sends : Parcel → Prop} {x : Action α}
    (routinely : x.Routinely sends) : x.Does vouching Vouched := routinely.does (suits_vouching _)

end WebSocket
