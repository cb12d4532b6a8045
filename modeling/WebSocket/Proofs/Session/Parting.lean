import WebSocket.Proofs.Session.Rejection

/-!
# Greetings and partings

A listener that is told that a connection is open should be told of its end before it is told of
another one, and before anyone gets control back with the client closed (`Matched`). Whoever begins
an attempt asks the transport to connect, and the transport may complete the handshake before it
answers. If it then does not take the attempt up, the attempt is aborted and nobody is told. That is
the only way in which a greeting stays without a parting (`matched_iff_unbroken`).
-/

namespace WebSocket

open WebSocket.Action

variable {α : Type}

/-! ### What a listener is told -/

def Request.greets : Request → Bool
  | notify _ (.connected _) => true
  | _ => false

def Request.parts : Request → Bool
  | notify _ .disconnected => true
  | _ => false

/-- The transport did not take an attempt up. -/
def Request.declines : (r : Request) → r.Answer → Bool
  | connect, .error _ => true
  | connectAsync, false => true
  | _, _ => false

namespace Moment

def greets : Moment → Bool
  | asked request => request.greets
  | called _ | changed .. | answered .. | returned _ => false

def parts : Moment → Bool
  | asked request => request.parts
  | called _ | changed .. | answered .. | returned _ => false

def declines : Moment → Bool
  | answered request answer => request.declines answer
  | called _ | changed .. | asked _ | returned _ => false

def returns : Moment → Bool
  | returned _ => true
  | called _ | changed .. | asked _ | answered .. => false

end Moment

/-- The listener was told that the connection is open, and not yet that it is over. -/
def greeted : List Moment → Bool
  | [] => false
  | moment :: h => moment.greets || (!moment.parts && greeted h)

/-- The attempts whose end the listener was told of. -/
def partings : List Moment → List Nat
  | [] => []
  | moment :: h => if moment.parts then attempts h :: partings h else partings h

/-- Every greeting is followed by a parting before the next greeting, and before anyone gets control
back with the client closed. -/
def Matched : List Moment → Prop
  | [] => True
  | moment :: h => Matched h ∧ (greeted h = true →
      moment.greets = false ∧ (moment.returns = true → phaseAfter h ≠ .closed))

/-- The transport declines no attempt after the listener was told that the connection is open, and
before it is told that it is over. -/
def Unbroken : List Moment → Prop
  | [] => True
  | moment :: h => Unbroken h ∧ (greeted h = true → moment.declines = false)

def decideMatched : (h : List Moment) → Decidable (Matched h)
  | [] => inferInstanceAs (Decidable True)
  | moment :: h =>
    have := decideMatched h
    inferInstanceAs (Decidable (Matched h ∧ (greeted h = true →
      moment.greets = false ∧ (moment.returns = true → phaseAfter h ≠ .closed))))

instance : DecidablePred Matched := decideMatched

def decideUnbroken : (h : List Moment) → Decidable (Unbroken h)
  | [] => inferInstanceAs (Decidable True)
  | moment :: h =>
    have := decideUnbroken h
    inferInstanceAs (Decidable (Unbroken h ∧ (greeted h = true → moment.declines = false)))

instance : DecidablePred Unbroken := decideUnbroken

/-! ### One more moment -/

/-- A moment at which no attempt begins, nobody is told of a connection or its end and no attempt is
declined. -/
structure Moment.Idle (moment : Moment) : Prop where
  goesOn : moment.signal? ≠ some .begun
  ungreeted : moment.greets = false
  unparted : moment.parts = false
  undeclined : moment.declines = false

theorem attempts_cons {moment : Moment} (goesOn : moment.signal? ≠ some .begun)
    (h : List Moment) : attempts (moment :: h) = attempts h := by
  unfold attempts
  rw [signals, List.count_append]
  cases signal : moment.signal? with
  | none => rfl
  | some other =>
    have isOther : other ≠ .begun := fun begun => goesOn (signal.trans (congrArg some begun))
    simp [isOther]

theorem signal?_of_closed {c c' : Client} (closed : c'.phase = .closed) :
    (Moment.changed c c').signal? ≠ some .begun := by
  refine Phase.signal?_ne_begun (.inr ?_)
  rw [closed]
  decide

theorem attempts_begun {moment : Moment} (begun : moment.signal? = some .begun)
    (h : List Moment) : attempts (moment :: h) = attempts h + 1 := by
  unfold attempts
  rw [signals, List.count_append, begun]
  rfl

section Moments

variable {moment : Moment} (h : List Moment)

theorem greeted_cons (ungreeted : moment.greets = false) (unparted : moment.parts = false) :
    greeted (moment :: h) = greeted h := by
  simp only [greeted, ungreeted, unparted, Bool.false_or, Bool.not_false, Bool.true_and]

theorem partings_cons (unparted : moment.parts = false) :
    partings (moment :: h) = partings h := by
  simp only [partings, unparted, Bool.false_eq_true, if_false]

theorem unbroken_cons (undeclined : moment.declines = false) :
    Unbroken (moment :: h) ↔ Unbroken h := by
  simp only [Unbroken, undeclined, implies_true, and_true]

theorem matched_cons (ungreeted : moment.greets = false) (goesOn : moment.returns = false) :
    Matched (moment :: h) ↔ Matched h := by
  simp only [Matched, ungreeted, goesOn, Bool.false_eq_true, false_implies, and_self,
    implies_true, and_true]

end Moments

/-! ### Partings -/

/-- What is true of greetings and partings whenever others have control. -/
structure Parted (c : Client) (h : List Moment) : Prop where
  phase : phaseAfter h = c.phase
  heard : greeted h = true → c.listener.isSome
  numbered : ∀ n ∈ partings h, n ≤ attempts h
  pending : c.phase ≠ .closed → attempts h ∉ partings h
  once : (partings h).Nodup
  matched : Matched h ↔ Unbroken h
  silent : Unbroken h → c.phase = .closed ∨ c.phase = .connecting → greeted h = false

def parting : Duty where
  holds := Parted
  keeps _ _ _ _ := True
  refl _ _ := trivial
  trans _ _ := trivial

/-- A change that does not end an attempt. -/
structure Lasting (c c' : Client) : Prop where
  follows : c.phase.Follows c'.phase
  lasts : c'.phase = .closed → c.phase = .closed
  listener : c.listener.isSome → c'.listener.isSome

theorem Parted.changed {c c' : Client} {h : List Moment} (parted : Parted c h)
    (lasting : Lasting c c') : Parted c' (.changed c c' :: h) := by
  have told : greeted (.changed c c' :: h) = greeted h := greeted_cons h rfl rfl
  have ends : partings (.changed c c' :: h) = partings h := partings_cons h rfl
  have unbroken : Unbroken (.changed c c' :: h) ↔ Unbroken h := unbroken_cons h rfl
  refine ⟨rfl, ?_, ?_, ?_, ?_, ?_, ?_⟩
  · rw [told]
    exact fun isTold => lasting.listener (parted.heard isTold)
  · rw [ends]
    intro n isIn
    have earlier := parted.numbered n isIn
    by_cases begun : (Moment.changed c c').signal? = some .begun
    · rw [attempts_begun begun]
      omega
    · rw [attempts_cons begun]
      exact earlier
  · rw [ends]
    intro active
    by_cases begun : (Moment.changed c c').signal? = some .begun
    · rw [attempts_begun begun]
      intro isIn
      have := parted.numbered _ isIn
      omega
    · rw [attempts_cons begun]
      refine parted.pending fun closed => ?_
      have follows := lasting.follows
      rw [Moment.signal?, closed] at begun
      rw [closed] at follows
      exact follows.of_closed.elim active begun
  · rw [ends]
    exact parted.once
  · rw [unbroken, matched_cons h rfl rfl]
    exact parted.matched
  · rw [unbroken, told]
    intro intact quiet
    refine parted.silent intact ?_
    have follows := lasting.follows
    rcases quiet with closed | connecting
    · exact .inl (lasting.lasts closed)
    · rw [connecting] at follows
      generalize c.phase = p at follows ⊢
      cases follows with
      | stays => exact .inr rfl
      | begins => exact .inl rfl

theorem Parted.idle {c : Client} {h : List Moment} (parted : Parted c h) {moment : Moment}
    (idle : moment.Idle) (same : moment.isChange = false) : Parted c (moment :: h) := by
  have told := greeted_cons h idle.ungreeted idle.unparted
  have ends := partings_cons h idle.unparted
  have count := attempts_cons idle.goesOn h
  have unbroken := unbroken_cons h idle.undeclined
  refine ⟨(phaseAfter_cons same h).trans parted.phase, told ▸ parted.heard,
    ends ▸ count ▸ parted.numbered, ends ▸ count ▸ parted.pending, ends ▸ parted.once, ?_, ?_⟩
  · rw [unbroken]
    refine ⟨fun matched => parted.matched.mp matched.1, fun intact => ?_⟩
    refine ⟨parted.matched.mpr intact, fun isTold => ⟨idle.ungreeted, fun _ closed => ?_⟩⟩
    rw [parted.silent intact (.inl (parted.phase.symm.trans closed))] at isTold
    cases isTold
  · rw [unbroken, told]
    exact parted.silent

/-- An opening is told. -/
theorem Parted.greet {c : Client} {h : List Moment} (parted : Parted c h) {listener : Listener}
    (somebody : c.listener = some listener) (active : c.phase ≠ .closed ∧ c.phase ≠ .connecting)
    (first : Unbroken h → greeted h = false) (response : Option UpgradeResponse) :
    Parted c (.asked (.notify listener (.connected response)) :: h) := by
  have unbroken := unbroken_cons h
    (rfl : (Moment.asked (.notify listener (.connected response))).declines = false)
  have count : attempts (.asked (.notify listener (.connected response)) :: h) = attempts h :=
    attempts_cons (Moment.signal?_ne_begun rfl) h
  refine ⟨parted.phase, fun _ => somebody ▸ rfl, count ▸ parted.numbered, count ▸ parted.pending,
    parted.once, ?_, fun _ quiet => (quiet.elim active.1 active.2).elim⟩
  rw [unbroken]
  refine ⟨fun matched => parted.matched.mp matched.1, fun intact => ?_⟩
  refine ⟨parted.matched.mpr intact, fun isTold => ?_⟩
  rw [first intact] at isTold
  cases isTold

/-- The end of an attempt. -/
theorem Parted.leave {c c' : Client} {h : List Moment} (parted : Parted c h)
    (closed : c'.phase = .closed) (silent : greeted h = false) :
    Parted c' (.changed c c' :: h) := by
  have told : greeted (.changed c c' :: h) = false := (greeted_cons h rfl rfl).trans silent
  have ends : partings (.changed c c' :: h) = partings h := partings_cons h rfl
  refine ⟨rfl, fun isTold => ?_, ?_, fun active => absurd closed active, ends ▸ parted.once, ?_,
    fun _ _ => told⟩
  · rw [told] at isTold
    cases isTold
  · rw [ends, attempts_cons (signal?_of_closed closed)]
    exact parted.numbered
  · rw [unbroken_cons h rfl, matched_cons h rfl rfl]
    exact parted.matched

/-- The end of an attempt, and the listener is told. -/
theorem Parted.part {c c' : Client} {h : List Moment} (parted : Parted c h)
    (active : c.phase ≠ .closed) (closed : c'.phase = .closed) (listener : Listener) :
    Parted c'
      (.asked (.notify listener .disconnected) :: .changed c' c' :: .changed c c' :: h) := by
  have count : attempts (.changed c' c' :: .changed c c' :: h) = attempts h := by
    rw [attempts_cons (signal?_of_same rfl), attempts_cons (signal?_of_closed closed)]
  have ends : partings (.asked (.notify listener .disconnected) :: .changed c' c' ::
      .changed c c' :: h) = attempts h :: partings h := by
    rw [← count]
    rfl
  refine ⟨rfl, fun isTold => ?_, ?_, fun active => absurd closed active, ?_, ?_, fun _ _ => rfl⟩
  · cases isTold
  · rw [ends, attempts_cons (Moment.signal?_ne_begun rfl), count]
    intro n isIn
    rcases List.mem_cons.mp isIn with rfl | isEarlier
    · exact Nat.le_refl _
    · exact parted.numbered n isEarlier
  · rw [ends]
    exact List.nodup_cons.mpr ⟨parted.pending active, parted.once⟩
  · rw [unbroken_cons _ rfl, unbroken_cons _ rfl, unbroken_cons _ rfl, matched_cons _ rfl rfl,
      matched_cons _ rfl rfl, matched_cons _ rfl rfl]
    exact parted.matched

/-- An attempt that was not taken up ends without a word, and the call returns. -/
theorem Parted.abort {c : Client} {h : List Moment} (parted : Parted c h) {request : Request}
    {answer : request.Answer} (declines : request.declines answer = true) (reply : Reply) :
    Parted c.abortConnect (.returned reply :: .changed c c.abortConnect ::
      .answered request answer :: h) := by
  have closed : c.abortConnect.phase = .closed := by
    obtain ⟨config, ⟨phase, sent, received⟩, rest⟩ := c
    cases phase <;> rfl
  have count : attempts (.returned reply :: .changed c c.abortConnect ::
      .answered request answer :: h) = attempts h := by
    rw [attempts_cons (Moment.signal?_ne_begun rfl), attempts_cons (signal?_of_closed closed),
      attempts_cons (Moment.signal?_ne_begun rfl)]
  have told : greeted (.returned reply :: .changed c c.abortConnect ::
      .answered request answer :: h) = greeted h := by
    rw [greeted_cons _ rfl rfl, greeted_cons _ rfl rfl, greeted_cons _ rfl rfl]
  have unbroken : Unbroken (.returned reply :: .changed c c.abortConnect ::
      .answered request answer :: h) ↔ Unbroken h ∧ ¬greeted h = true := by
    rw [unbroken_cons _ rfl, unbroken_cons _ rfl, Unbroken, Moment.declines, declines]
    simp only [Bool.true_eq_false, imp_false]
  refine ⟨rfl, told ▸ parted.heard, count ▸ parted.numbered, fun active => absurd closed active,
    parted.once, ?_, fun intact _ => ?_⟩
  · rw [unbroken, Matched, matched_cons _ rfl rfl, matched_cons _ rfl rfl, parted.matched]
    refine and_congr_right fun _ => imp_congr_right fun _ => ?_
    simp [Moment.returns, phaseAfter, closed]
  · rw [told, ← Bool.not_eq_true]
    exact (unbroken.mp intact).2

/-! ### Actions that end no attempt -/

/-- Neither the start of an attempt nor a word about a connection or its end. -/
def Request.isPlain : Request → Bool
  | connect | connectAsync | notify _ (.connected _) | notify _ .disconnected => false
  | _ => true

theorem Request.isPlain_of_frame {r : Request} {bytes : Bytes} (frame : r.frame? = some bytes) :
    r.isPlain := by
  cases r <;> first | rfl | cases frame

theorem idle_asked {r : Request} (plain : r.isPlain) : (Moment.asked r).Idle := by
  refine ⟨Moment.signal?_ne_begun rfl, ?_, ?_, rfl⟩
  · cases r <;> first | rfl | (rename_i notice; cases notice <;> first | rfl | cases plain)
  · cases r <;> first | rfl | (rename_i notice; cases notice <;> first | rfl | cases plain)

theorem idle_answered {r : Request} {answer : r.Answer} (taken : r.declines answer = false) :
    (Moment.answered r answer).Idle := ⟨Moment.signal?_ne_begun rfl, rfl, rfl, taken⟩

theorem declines_of_isPlain {r : Request} (plain : r.isPlain) (answer : r.Answer) :
    r.declines answer = false := by
  cases r <;> first | rfl | cases plain

theorem tolerates_parting : Tolerates parting Lasting fun r => r.isPlain where
  changed parted lasting := ⟨parted.changed lasting, trivial⟩
  asked parted plain := ⟨parted.idle (idle_asked plain) rfl, trivial⟩
  answered answer parted plain :=
    ⟨parted.idle (idle_answered (declines_of_isPlain plain answer)) rfl, trivial⟩

abbrev Action.Lasts (x : Action α) : Prop := x.Every (fun _ => True) Lasting fun r => r.isPlain

theorem GateStroke.lasting {c c' : Client} (stroke : GateStroke c c') : Lasting c c' := by
  rw [stroke.eq]
  exact ⟨.stays _, id, id⟩

theorem Stroke.listener {c c' : Client} (stroke : Stroke c c') (somebody : c.listener.isSome) :
    c'.listener.isSome := by
  obtain ⟨stroke, -⟩ := stroke
  cases stroke with
  | listen listener => rfl
  | beginConnect key awaited =>
    unfold Client.beginConnect
    split <;> exact somebody
  | judgeResponse response =>
    unfold Client.judgeResponse
    repeat' (first | exact somebody | split)
  | completeHandshake =>
    unfold Client.completeHandshake
    repeat' (first | exact somebody | split)
  | beginDisconnect =>
    unfold Client.beginDisconnect
    split <;> exact somebody
  | beginClose code =>
    unfold Client.beginClose
    repeat' (first | exact somebody | split)
  | _ => exact somebody

theorem Stroke.lasting {c c' : Client} (stroke : Stroke c c')
    (lasts : c'.phase = .closed → c.phase = .closed) : Lasting c c' :=
  ⟨stroke.phase, lasts, stroke.listener⟩

theorem Handled.lasting {c c' : Client} (handled : Handled c c') : Lasting c c' := by
  refine handled.stroke.lasting ?_
  obtain ⟨config, ⟨phase, sent, received⟩, rest⟩ := c
  obtain ⟨stroke, isAmong⟩ := handled
  cases stroke with
  | look => exact id
  | enqueue message => exact id
  | closeLocally status => cases phase <;> first | exact id | exact nofun
  | closeRemotely body => cases phase <;> first | exact id | exact nofun
  | _ => cases isAmong

namespace Client

theorem lasting_look (c : Client) : Lasting c c := ⟨.stays _, id, id⟩

theorem lasting_beginConnect (key : HandshakeKey) (awaited : Bool) (c : Client) :
    Lasting c (c.beginConnect key awaited).2 := by
  refine Stroke.lasting (.of (.beginConnect key awaited) rfl) ?_
  obtain ⟨config, ⟨phase, sent, received⟩, rest⟩ := c
  cases phase <;> first | exact id | exact nofun

theorem lasting_judgeResponse (response : UpgradeResponse) (c : Client) :
    Lasting c (c.judgeResponse response).2 := by
  refine Stroke.lasting (.of (.judgeResponse response) rfl) ?_
  unfold judgeResponse
  repeat' (first | exact id | split)

theorem lasting_completeHandshake (c : Client) : Lasting c c.completeHandshake.2 := by
  refine Stroke.lasting (.of .completeHandshake rfl) ?_
  obtain ⟨config, ⟨phase, sent, received⟩, key, awaited, announced, rejected, rest⟩ := c
  cases rejected <;> cases phase <;> first | exact id | exact nofun

theorem lasting_beginDisconnect (c : Client) : Lasting c c.beginDisconnect.2 := by
  refine Stroke.lasting (.of .beginDisconnect rfl) ?_
  obtain ⟨config, ⟨phase, sent, received⟩, rest⟩ := c
  cases phase <;> first | exact id | exact nofun

theorem lasting_beginClose (code : CloseCode) (c : Client) :
    Lasting c (c.beginClose code).2 := by
  refine Stroke.lasting (.of (.beginClose code) rfl) ?_
  obtain ⟨config, ⟨phase, sent, received⟩, rest⟩ := c
  unfold beginClose
  split
  · exact id
  · cases phase <;> first | exact id | exact nofun

theorem lasting_absorb (data : Bytes) (c : Client) : Lasting c (c.absorb data).2 := by
  rw [absorb_eq]
  exact ⟨.stays _, id, id⟩

theorem lasts_notify {notice : Notice}
    (plain : ∀ listener, (Request.notify listener notice).isPlain) : (notify notice).Lasts :=
  every_notify (fun c _ => lasting_look c) plain

theorem lasts_throughGate (consent : Client → Except Error Unit) (parcel : Parcel)
    {transmit : Bytes → Action α} (handsOver : HandsOver transmit) :
    (throughGate consent parcel transmit).Lasts :=
  every_throughGate (fun _ _ => GateStroke.lasting) handsOver
    fun _ _ => Request.isPlain_of_frame

theorem lasts_announceClose (status : UInt16) : (announceClose status).Lasts :=
  every_bind (lasts_throughGate _ _ handsOver_sendAsync) fun _ => every_pure _

theorem answers_lasting : Answers Lasting fun r => r.isPlain where
  look := lasting_look
  closeLocally status _ := Handled.lasting (.of (.closeLocally status) rfl)
  closeRemotely body _ := Handled.lasting (.of (.closeRemotely body) rfl)
  tells _ notice ofPeer := by cases notice <;> first | rfl | cases ofPeer
  down := rfl

theorem lasts_actOn (read : List Event × Option Error) : (actOn read).Lasts := by
  have handsOver : ∀ message,
      (handOver message).Composed Lasting (fun r => r.isPlain) fun _ => True := fun message =>
    composed_handOver message lasting_look (fun _ => rfl) fun _ =>
      Handled.lasting (.of (.enqueue message) rfl)
  have acts : (actOn read).Composed Lasting (fun r => r.isPlain) fun _ => True :=
    composed_actOn answers_lasting handsOver (fun _ _ _ _ => trivial) fun _ _ => trivial
  exact acts.every (fun _ _ => id) lasting_look (fun _ _ _ _ => GateStroke.lasting)
    (fun _ => id) (fun _ _ => rfl) fun _ _ _ _ => Request.isPlain_of_frame

theorem lasts_receive (limit : Option Duration) : (receive limit).Lasts := by
  apply every_bind (every_get fun c _ => lasting_look c)
  intro c
  apply every_bind (every_waitFor _ _)
  intro _
  exact every_step fun c _ => Stroke.lasting (.of .dequeue rfl) id

theorem lasts_disconnect : disconnect.Lasts := by
  apply every_bind (every_step fun c _ => lasting_beginDisconnect c)
  intro begun
  split
  · exact every_pure _
  · have down : (request .disconnect).Lasts := every_request rfl
    split
    · exact every_bind (every_bind (lasts_throughGate _ _ handsOver_send) fun _ => every_pure _)
        fun _ => down
    · exact down

theorem lasts_disconnectAsync : disconnectAsync.Lasts := by
  apply every_bind (every_step fun c _ => lasting_beginDisconnect c)
  intro begun
  split
  · exact every_pure _
  · have down : (request .disconnectAsync).Lasts := every_request rfl
    split
    · exact every_bind (lasts_announceClose _) fun _ => down
    · exact down

theorem lasts_sendCloseAsync (code : CloseCode) (reason : String) :
    (sendCloseAsync code reason).Lasts := by
  apply every_bind (every_step fun c _ => lasting_beginClose code c)
  intro begun
  split
  · exact every_pure _
  · exact every_pure _
  · exact lasts_throughGate _ _ handsOver_sendAsync

theorem lasts_responseArrived (response : UpgradeResponse) : (responseArrived response).Lasts := by
  apply every_bind (every_step fun c _ => lasting_judgeResponse response c)
  intro judged
  split
  · exact every_pure _
  · exact every_bind (lasts_notify fun _ => rfl) fun _ =>
      every_bind (every_request rfl) fun _ => every_pure _

theorem lasts_awaitHandshake : awaitHandshake.Lasts := by
  apply every_bind (every_get fun c _ => lasting_look c)
  intro c
  split
  · exact every_bind (every_get fun c _ => lasting_look c) fun _ => every_waitFor _ _
  · exact every_pure _

/-! ### Actions that end an attempt -/

theorem parts_transportDown : transportDown.Does parting Parted := by
  intro c h parted
  refine assures_bind.mpr (assures_step.mpr ?_)
  have ended := closed_disconnected c
  by_cases closed : c.phase = .closed
  · rw [disconnected_closed closed]
    exact ⟨parted.changed (Stroke.lasting (.of .disconnected rfl) fun _ => closed), trivial⟩
  rw [disconnected_active closed]
  refine assures_bind.mpr (assures_get.mpr ?_)
  cases somebody : c.disconnected.2.listener with
  | none =>
    have silent : greeted h = false := by
      cases told : greeted h with
      | false => rfl
      | true =>
        have heard := Stroke.listener (.of .disconnected rfl) (parted.heard told)
        rw [somebody] at heard
        cases heard
    exact ⟨(parted.leave ended silent).changed (lasting_look _), trivial⟩
  | some listener =>
    refine ⟨parted.part closed ended listener, fun answer c' h' parted' _ => ?_⟩
    exact ⟨parted'.idle (idle_answered rfl) rfl, trivial⟩

theorem parts_transportFailed (reason : String) : (transportFailed reason).Does parting Parted :=
  does_bind (does_of_every tolerates_parting (lasts_notify fun _ => rfl)) fun _ =>
    parts_transportDown

theorem parts_transmit (consent : Client → Except Error Unit) (parcel : Parcel)
    (limit : Option Duration) : (transmit consent parcel limit).Does parting Parted := by
  have look : get.Lasts := every_get fun c _ => lasting_look c
  apply does_bind (does_of_every tolerates_parting look)
  intro c
  apply does_bind (does_of_every tolerates_parting
    (lasts_throughGate _ _ (handsOver_transmitWithin _)))
  intro answer
  split
  · exact does_pure _
  · exact does_pure _
  · exact does_bind (parts_transportFailed _) fun _ => does_pure _

theorem parts_sendClose (code : CloseCode) (reason : String) (limit : Option Duration) :
    (sendClose code reason limit).Does parting Parted := by
  have begins : (step (beginClose code)).Lasts := every_step fun c _ => lasting_beginClose code c
  apply does_bind (does_of_every tolerates_parting begins)
  intro begun
  split
  · exact does_pure _
  · exact does_pure _
  · exact parts_transmit _ _ _

/-- A handshake is completed only while the client connects, when no greeting is due a parting. -/
theorem parts_handshakeCompleted : handshakeCompleted.Does parting Parted := by
  intro c h parted
  refine assures_bind.mpr (assures_step.mpr ?_)
  by_cases rejected : c.rejected = true
  · rw [completeHandshake_of_rejected rejected]
    exact ⟨parted.changed (lasting_look c), trivial⟩
  by_cases connecting : c.phase = .connecting
  · obtain ⟨c', completed, opened, -⟩ :=
      completeHandshake_of_connecting (Bool.not_eq_true _ ▸ rejected) connecting
    have lasting : Lasting c c' := by simpa only [completed] using lasting_completeHandshake c
    have looked := (parted.changed lasting).changed (lasting_look c')
    rw [completed]
    refine assures_bind.mpr (assures_get.mpr ?_)
    cases somebody : c'.listener with
    | none => exact ⟨looked, trivial⟩
    | some listener =>
      have active : c'.phase ≠ .closed ∧ c'.phase ≠ .connecting := by
        rw [opened]
        exact ⟨nofun, nofun⟩
      have first : Unbroken (.changed c' c' :: .changed c c' :: h) →
          greeted (.changed c' c' :: .changed c c' :: h) = false := by
        rw [unbroken_cons _ rfl, unbroken_cons _ rfl, greeted_cons _ rfl rfl,
          greeted_cons _ rfl rfl]
        exact fun intact => parted.silent intact (.inr connecting)
      refine ⟨looked.greet somebody active first c.response, fun answer c₁ h₁ parted₁ _ => ?_⟩
      exact ⟨parted₁.idle (idle_answered rfl) rfl, trivial⟩
  · rw [completeHandshake_of_other connecting]
    exact ⟨parted.changed (lasting_look c), trivial⟩

end Client

/-! ### Calls -/

theorem Parted.called {c : Client} {h : List Moment} (parted : Parted c h) (call : Call) :
    Parted c (.called call :: h) :=
  parted.idle ⟨Moment.signal?_ne_begun rfl, rfl, rfl, rfl⟩ rfl

theorem Parted.returned {c : Client} {h : List Moment} (parted : Parted c h) (reply : Reply) :
    Parted c (.returned reply :: h) :=
  parted.idle ⟨Moment.signal?_ne_begun rfl, rfl, rfl, rfl⟩ rfl

theorem Call.parts_of_does {call : Call} (does : call.action.Does parting Parted) :
    call.Assured parting :=
  Call.assured_of_does does (fun _ _ parted => ⟨parted.called call, trivial⟩)
    fun reply _ _ parted => ⟨parted.returned reply, trivial⟩

theorem Call.parts_of_lasts {call : Call} (lasts : call.action.Lasts) : call.Assured parting :=
  Call.parts_of_does (does_of_every tolerates_parting lasts)

/-- The transport is asked to connect. If it declines, the attempt is aborted and the call
returns. -/
theorem assures_attempt {r : Request} {next : r.Answer → Action (Except Error Bool)} {c : Client}
    {h : List Moment} (parted : Parted c h) (asks : (Moment.asked r).Idle)
    (declined : ∀ answer, r.declines answer = true →
      ∃ value, next answer = modify Client.abortConnect >>= fun _ => pure value)
    (taken : ∀ answer, r.declines answer = false → (next answer).Does parting Parted) :
    (request r >>= next).Assures parting
      (fun value c' h' => Parted c' (.returned (.outcome value) :: h') ∧ True) c h := by
  refine ⟨parted.idle asks rfl, fun answer c' h' parted' _ => ?_⟩
  show (next answer).Assures _ _ _ _
  cases declines : r.declines answer with
  | true =>
    obtain ⟨value, aborts⟩ := declined answer declines
    rw [aborts]
    exact ⟨parted'.abort declines _, trivial⟩
  | false =>
    have answered := parted'.idle (idle_answered declines) rfl
    refine (taken answer declines _ _ answered).mono fun value _ _ ⟨parted, _⟩ => ?_
    exact ⟨parted.returned _, trivial⟩

theorem Call.parts_connectAsync (key : HandshakeKey) :
    (Call.connectAsync key).Assured parting := by
  intro c h parted
  refine assures_bind.mpr (assures_bind.mpr (assures_step.mpr ?_))
  have begun := (parted.called (.connectAsync key)).changed
    (Client.lasting_beginConnect key false c)
  split
  · refine assures_attempt begun ⟨nofun, rfl, rfl, rfl⟩ ?_ ?_
    · intro taken declines
      cases taken with
      | true => cases declines
      | false => exact ⟨.ok false, rfl⟩
    · intro taken accepts
      cases taken with
      | true => exact does_pure _
      | false => cases accepts
  · exact ⟨begun.returned _, trivial⟩

theorem Call.parts_connect (key : HandshakeKey) : (Call.connect key).Assured parting := by
  intro c h parted
  refine assures_bind.mpr (assures_bind.mpr (assures_step.mpr ?_))
  have begun := (parted.called (.connect key)).changed (Client.lasting_beginConnect key true c)
  split
  · refine assures_attempt begun ⟨nofun, rfl, rfl, rfl⟩ ?_ ?_
    · intro taken declines
      cases taken with
      | ok _ => cases declines
      | error reason => exact ⟨.error (.io reason), rfl⟩
    · intro taken accepts
      cases taken with
      | error reason => cases accepts
      | ok _ =>
        have stops : (step Client.stopAwaiting).Lasts :=
          every_step fun c _ => Stroke.lasting (.of .stopAwaiting rfl) id
        apply does_bind (does_of_every tolerates_parting Client.lasts_awaitHandshake)
        intro _
        apply does_bind (does_of_every tolerates_parting stops)
        intro phase
        have ends : Client.disconnectAsync.Does parting Parted :=
          does_of_every tolerates_parting Client.lasts_disconnectAsync
        split
        · exact does_bind (does_discard ends) fun _ => does_pure _
        · exact does_pure _
  · exact ⟨begun.returned _, trivial⟩

theorem Call.assured_parting (call : Call) : call.Assured parting := by
  cases call with
  | connect key => exact Call.parts_connect key
  | connectAsync key => exact Call.parts_connectAsync key
  | disconnect =>
    exact Call.parts_of_lasts (every_bind Client.lasts_disconnect fun _ => every_pure _)
  | disconnectAsync =>
    exact Call.parts_of_lasts (every_bind Client.lasts_disconnectAsync fun _ => every_pure _)
  | send what limit => exact Call.parts_of_does (does_map (Client.parts_transmit _ _ _))
  | sendAsync what =>
    exact Call.parts_of_lasts
      (every_bind (Client.lasts_throughGate _ _ handsOver_sendAsync) fun _ => every_pure _)
  | sendClose code reason limit =>
    exact Call.parts_of_does (does_map (Client.parts_sendClose _ _ _))
  | sendCloseAsync code reason =>
    exact Call.parts_of_lasts
      (every_bind (Client.lasts_sendCloseAsync code reason) fun _ => every_pure _)
  | receive limit =>
    exact Call.parts_of_lasts (every_bind (Client.lasts_receive limit) fun _ => every_pure _)
  | listen listener =>
    have listens : (modify fun c => { c with listener := some listener }).Lasts :=
      every_modify fun _ _ => Stroke.lasting (.of (.listen listener) rfl) id
    exact Call.parts_of_lasts (every_bind listens fun _ => every_pure _)
  | deliverTo receiver =>
    have chooses : (modify fun c => { c with receiver }).Lasts :=
      every_modify fun _ _ => Stroke.lasting (.of (.deliverTo receiver) rfl) id
    exact Call.parts_of_lasts (every_bind chooses fun _ => every_pure _)
  | responseArrived response =>
    exact Call.parts_of_lasts
      (every_bind (Client.lasts_responseArrived response) fun _ => every_pure _)
  | handshakeCompleted =>
    exact Call.parts_of_does (does_bind Client.parts_handshakeCompleted fun _ => does_pure _)
  | bytesArrived data =>
    have reads : (Client.bytesArrived data).Lasts :=
      Client.every_bytesArrived (fun c _ => Client.lasting_absorb data c) Client.lasts_actOn
    exact Call.parts_of_lasts (every_bind reads fun _ => every_pure _)
  | transportDown =>
    exact Call.parts_of_does (does_bind Client.parts_transportDown fun _ => does_pure _)
  | transportFailed reason =>
    exact Call.parts_of_does (does_bind (Client.parts_transportFailed reason) fun _ => does_pure _)

/-- No attempt is parted from twice. Greetings are matched by partings as long as, and only as long
as, the transport takes up the attempts whose handshake it completed. -/
theorem matched_iff_unbroken {config : Config} {seed : UInt32} {s : Session}
    (reachable : Session.Reachable config seed s) :
    (partings s.history).Nodup ∧ (Matched s.history ↔ Unbroken s.history) := by
  have start : Parted (.ofConfig config seed) [] :=
    ⟨rfl, nofun, nofun, fun _ => List.not_mem_nil, .nil, .rfl, fun _ _ => rfl⟩
  have parted := (Session.sound_of_assured Call.assured_parting start reachable).holds
  exact ⟨parted.once, parted.matched⟩

/-- The transport completes the handshake while it is asked to connect. -/
def openedWhileAsked : List Choice :=
  [.call (.listen (.named "main")), .call (.connectAsync (.ofNonce [])), .call .handshakeCompleted,
    .answer Request.takenUp]

theorem matched_iff_unbroken_takenUp :
    ∃ s, Session.after (openedWhileAsked ++ [.answer Request.takenUp, .call .transportDown,
        .answer Request.takenUp]) (.ofConfig {} 0) = some s ∧
      notices s.history = [.disconnected, .connected none] ∧ partings s.history = [1] ∧
      Unbroken s.history ∧ Matched s.history := by
  have played : (Session.after (openedWhileAsked ++ [.answer Request.takenUp, .call .transportDown,
        .answer Request.takenUp]) (.ofConfig {} 0)).map
      (fun s => (notices s.history, partings s.history, decide (Unbroken s.history))) =
      some ([.disconnected, .connected none], [1], true) := by
    decide +kernel
  obtain ⟨s, made, told⟩ := Option.map_eq_some_iff.mp played
  simp only [Prod.mk.injEq, decide_eq_true_eq] at told
  obtain ⟨notices, partings, unbroken⟩ := told
  obtain ⟨-, matched⟩ := matched_iff_unbroken (.after .start made)
  exact ⟨s, made, notices, partings, unbroken, matched.mpr unbroken⟩

/-- Surroundings that decline an attempt. -/
def Request.declined : (r : Request) → r.Answer
  | connectAsync => false
  | r => r.takenUp

/-- The attempt was opened and is declined. The client is closed, and the listener was not told. -/
theorem greeting_unmatched_of_declined :
    ∃ s, Session.after (openedWhileAsked ++ [.answer Request.declined]) (.ofConfig {} 0) = some s ∧
      s.callers.length = 0 ∧ s.client.phase = .closed ∧ notices s.history = [.connected none] ∧
      ¬Matched s.history := by
  have played : (Session.after (openedWhileAsked ++ [.answer Request.declined])
      (.ofConfig {} 0)).map (fun s =>
        (s.callers.length, s.client.phase, notices s.history, decide (Matched s.history))) =
      some (0, .closed, [.connected none], false) := by
    decide +kernel
  obtain ⟨s, made, told⟩ := Option.map_eq_some_iff.mp played
  simp only [Prod.mk.injEq, decide_eq_false_iff_not] at told
  exact ⟨s, made, told⟩

end WebSocket
