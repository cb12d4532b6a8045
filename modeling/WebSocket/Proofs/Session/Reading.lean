import WebSocket.Proofs.Decoder.Ending
import WebSocket.Proofs.Decoder.Reset
import WebSocket.Proofs.Session.Assurance
import WebSocket.Proofs.Session.Course
import WebSocket.Proofs.Session.Signals

/-!
# What a client reads comes from its attempt

A decoder holds bytes over from one delivery to the next, and a client can go through many attempts.
What it reads is still determined by the bytes that were delivered in the attempt under way
(`Reads`), for every attempt starts from a decoder that was reset.
-/

namespace WebSocket

open WebSocket.Action

/-- The bytes that were delivered since the last attempt began, in order. -/
def delivered : List Moment → List Bytes
  | [] => []
  | .called (.bytesArrived data) :: h => delivered h ++ [data]
  | moment :: h => if moment.signal? = some .begun then [] else delivered h

theorem delivered_called {call : Call} (other : call.isDelivery = false) (h : List Moment) :
    delivered (.called call :: h) = delivered h := by
  cases call <;> first | rfl | cases other

theorem delivered_changed (c c' : Client) (h : List Moment) :
    delivered (.changed c c' :: h) =
      if Phase.signal? c.phase c'.phase = some .begun then [] else delivered h := rfl

theorem delivered_asked (r : Request) (h : List Moment) :
    delivered (.asked r :: h) = delivered h := by
  cases r <;> rfl

/-- What has been read of the attempt under way. -/
def readSoFar (config : Config) (h : List Moment) : Decoder.Drained :=
  (Decoder.ofConfig config).drainEach (delivered h)

/-- The deliveries of the attempt leave a decoder as it is, and nothing in them ends reading. -/
structure UpToDate (config : Config) (d : Decoder) (h : List Moment) : Prop where
  sound : (readSoFar config h).fault = none
  decoder : d = (readSoFar config h).decoder
  unclosed : (readSoFar config h).events.any Event.isClose = false

/-- While a client reads, its decoder is up to date, and it goes on until reading ends. -/
structure Reads (config : Config) (c : Client) (h : List Moment) : Prop where
  settings : c.config = config
  reset : c.decoder.reset = .ofConfig config
  decoder : c.phase ≠ .closed → c.halted = false → UpToDate config c.decoder h
  ended : c.phase ≠ .closed → c.halted = true → (readSoFar config h).ending?.isSome

theorem readSoFar_of_same {h h' : List Moment} (same : delivered h' = delivered h)
    (config : Config) : readSoFar config h' = readSoFar config h := by
  rw [readSoFar, same, readSoFar]

theorem UpToDate.of_same {config : Config} {d : Decoder} {h h' : List Moment}
    (upToDate : UpToDate config d h) (same : delivered h' = delivered h) :
    UpToDate config d h' := by
  obtain ⟨sound, decoder, unclosed⟩ := upToDate
  rw [← readSoFar_of_same same config] at sound decoder unclosed
  exact ⟨sound, decoder, unclosed⟩

theorem UpToDate.goesOn {config : Config} {d : Decoder} {h : List Moment}
    (upToDate : UpToDate config d h) : (readSoFar config h).ending? = none := by
  have quiet : firstClose? (readSoFar config h).events = none := by
    rw [← Option.not_isSome_iff_eq_none, ← any_isClose, upToDate.unclosed]
    exact nofun
  simp only [Decoder.Drained.ending?, quiet, upToDate.sound, Option.map_none]

def reading (config : Config) : Duty where
  holds := Reads config
  keeps _ _ _ _ := True
  refl _ _ := trivial
  trans _ _ := trivial

/-! ### Strokes -/

/-- What a stroke may do to the decoder: an attempt begins with one that was reset; while it lasts
the decoder is the same; and otherwise nothing is read before the next attempt. -/
inductive Rereads (c c' : Client) : Prop
  | begins (closed : c.phase = .closed) (begun : c'.phase = .connecting)
    (decoder : c'.decoder = c.decoder.reset) (listens : c'.halted = false)
  | down (closed : c'.phase = .closed)
  | same (active : c.phase ≠ .closed) (decoder : c'.decoder = c.decoder)
    (halted : c'.halted = c.halted)

theorem Stroke.rereads {c c' : Client} (stroke : Stroke c c') : Rereads c c' := by
  obtain ⟨config, ⟨phase, sent, received⟩, key, awaited, announced, rejected, response, decoder,
    halted, mailbox, gate, listener, receiver⟩ := c
  obtain ⟨stroke, -⟩ := stroke
  cases stroke with
  | beginConnect key awaited =>
    cases phase <;> first | exact .begins rfl rfl rfl rfl | exact .same nofun rfl rfl
  | abortConnect => cases phase <;> exact .down rfl
  | judgeResponse response =>
    unfold Client.judgeResponse
    cases phase <;> repeat' (first | exact .down rfl | exact .same nofun rfl rfl | split)
  | completeHandshake =>
    cases rejected <;> cases phase <;> first | exact .down rfl | exact .same nofun rfl rfl
  | beginClose code =>
    unfold Client.beginClose
    cases phase <;> split <;> first | exact .down rfl | exact .same nofun rfl rfl
  | _ => cases phase <;> first | exact .down rfl | exact .same nofun rfl rfl

theorem Change.rereads {c c' : Client} (change : Change c c') : Rereads c c' := by
  rcases change with stroke | stroke
  · exact stroke.rereads
  · rw [stroke.eq]
    by_cases closed : c.phase = .closed
    · exact .down closed
    · exact .same closed rfl rfl

theorem Change.settings {c c' : Client} (change : Change c c') :
    c'.config = c.config ∧ c'.decoder.reset = c.decoder.reset := by
  rcases change with stroke | stroke
  · exact ⟨stroke.untouched.settings, stroke.untouched.reset⟩
  · rw [stroke.eq]
    exact ⟨rfl, rfl⟩

theorem Reads.change {config : Config} {c c' : Client} {h : List Moment}
    (reads : Reads config c h) (change : Change c c') : Reads config c' (.changed c c' :: h) := by
  obtain ⟨settings, reset⟩ := change.settings
  cases change.rereads with
  | begins closed begun fresh listens =>
    have nothing : delivered (.changed c c' :: h) = [] := by
      rw [delivered_changed, closed, begun]
      rfl
    refine ⟨settings.trans reads.settings, reset.trans reads.reset, fun _ _ => ?_,
      fun _ halted => ?_⟩
    · rw [fresh, reads.reset]
      refine ⟨?_, ?_, ?_⟩ <;> rw [readSoFar, nothing] <;> rfl
    · rw [listens] at halted
      cases halted
  | down closed =>
    exact ⟨settings.trans reads.settings, reset.trans reads.reset,
      fun active => absurd closed active, fun active => absurd closed active⟩
  | same wasActive same sameHalted =>
    have continues : delivered (.changed c c' :: h) = delivered h :=
      if_neg (Phase.signal?_ne_begun (.inl wasActive))
    refine ⟨settings.trans reads.settings, reset.trans reads.reset, fun _ listening => ?_,
      fun _ halted => ?_⟩
    · rw [same]
      exact (reads.decoder wasActive (sameHalted.symm.trans listening)).of_same continues
    · rw [readSoFar_of_same continues]
      exact reads.ended wasActive (sameHalted.symm.trans halted)

theorem Reads.of_same {config : Config} {c : Client} {h h' : List Moment}
    (reads : Reads config c h) (same : delivered h' = delivered h) : Reads config c h' :=
  ⟨reads.settings, reads.reset,
    fun active listening => (reads.decoder active listening).of_same same,
    fun active halted => readSoFar_of_same same config ▸ reads.ended active halted⟩

/-! ### Deliveries -/

/-- A delivery after which reading goes on was drained to its end. -/
theorem Decoder.drain_of_goesOn {d : Decoder}
    (goesOn : (d.drainToClose.fault.isSome || d.drainToClose.events.any Event.isClose) = false) :
    d.drainToClose = d.drain ∧ d.drain.fault = none ∧
      d.drain.events.any Event.isClose = false := by
  obtain ⟨sound, quiet⟩ := Bool.or_eq_false_iff.mp goesOn
  have noClose : firstClose? d.drain.events = none := by
    cases close : firstClose? d.drain.events with
    | none => rfl
    | some body =>
      obtain ⟨before, events, -, -⟩ := Decoder.drainToClose_of_firstClose close
      simp [events, Event.isClose] at quiet
  have whole := Decoder.drainToClose_eq_drain noClose
  rw [whole] at sound quiet
  exact ⟨whole, by simpa using sound, quiet⟩

theorem delivered_delivery {c c' : Client} (same : c'.phase = c.phase) (data : Bytes)
    (h : List Moment) :
    delivered (.changed c c' :: .called (.bytesArrived data) :: h) = delivered h ++ [data] := by
  rw [delivered_changed, same, Phase.signal?_self, if_neg nofun]
  rfl

/-- A delivery adds to what was read what it makes of the bytes. -/
theorem readSoFar_delivery {config : Config} {c : Client} {h : List Moment}
    (reads : Reads config c h) (active : c.phase ≠ .closed) (listening : c.halted = false)
    (data : Bytes) :
    readSoFar config (.changed c (c.absorb data).2 :: .called (.bytesArrived data) :: h) =
      (c.decoder.feed data).drain.after (readSoFar config h).events := by
  obtain ⟨sound, decoder, -⟩ := reads.decoder active listening
  rw [readSoFar, delivered_delivery (Client.absorb_phase data c) data h,
    Decoder.drainEach_concat _ sound, decoder]
  rfl

theorem Reads.delivery {config : Config} {c : Client} {h : List Moment}
    (reads : Reads config c h) (data : Bytes) :
    Reads config (c.absorb data).2
      (.changed c (c.absorb data).2 :: .called (.bytesArrived data) :: h) := by
  rcases Decidable.em (c.phase = .closed) with closed | active
  · rw [Client.absorb_idle (.inl closed)]
    exact ⟨reads.settings, reads.reset, fun active => absurd closed active,
      fun active => absurd closed active⟩
  cases halted : c.halted with
  | true =>
    rw [Client.absorb_idle (.inr halted)]
    refine ⟨reads.settings, reads.reset, fun _ listening => ?_, fun _ _ => ?_⟩
    · rw [halted] at listening
      cases listening
    · obtain ⟨-, ending⟩ :=
        Decoder.drainEach_append_of_ending (reads.ended active halted) [data]
      rw [readSoFar, delivered_delivery rfl, ending]
      exact reads.ended active halted
  | false =>
    have upToDate := reads.decoder active halted
    have absorbed := Client.absorb_active active halted data
    have read := readSoFar_delivery reads active halted data
    refine ⟨?_, ?_, fun _ goesOn => ?_, fun _ ended => ?_⟩
    · rw [absorbed]
      exact reads.settings
    · rw [absorbed]
      simp only [Decoder.reset_drainToClose, Decoder.reset_feed, reads.reset]
    · rw [absorbed] at goesOn
      obtain ⟨whole, drained, stillUnclosed⟩ := Decoder.drain_of_goesOn goesOn
      refine ⟨?_, ?_, ?_⟩
      · rw [read]
        exact drained
      · rw [read, absorbed, whole]
        rfl
      · rw [read]
        simp only [Decoder.Drained.after, List.any_append, upToDate.unclosed, stillUnclosed,
          Bool.or_self]
    · obtain ⟨-, quiet, -⟩ := Decoder.Drained.sound_of_no_ending upToDate.goesOn
      have ends := (c.decoder.feed data).drain.ends_reading
      rw [← Decoder.drainToClose_eq] at ends
      rw [absorbed] at ended
      rw [read, (Decoder.Drained.after_quiet quiet _).2, ← ends]
      exact ended

/-! ### Sessions -/

theorem tolerates_reading (config : Config) :
    Tolerates (reading config) Change fun _ => True := by
  refine ⟨?_, ?_, ?_⟩
  · intro c c' h reads change
    exact ⟨reads.change change, trivial⟩
  · intro c h r reads _
    exact ⟨reads.of_same (delivered_asked r h), trivial⟩
  · intro c h r answer reads _
    exact ⟨reads.of_same rfl, trivial⟩

theorem Call.assured_reading (config : Config) (call : Call) : call.Assured (reading config) := by
  intro c h reads
  have does : ∀ {x : Action Reply}, x.Made → x.Does (reading config) (Reads config) :=
    does_of_every (tolerates_reading config)
  cases delivery : call.isDelivery with
  | false =>
    have called := reads.of_same (delivered_called delivery h)
    refine (does (Call.regular delivery).made c _ called).mono fun reply c' h' ⟨later, _⟩ => ?_
    exact ⟨later.of_same rfl, trivial⟩
  | true =>
    cases call with
    | bytesArrived data =>
      refine assures_bind.mpr (assures_bind.mpr (assures_step.mpr ?_))
      have acts := does_of_every (tolerates_reading config)
        (Client.handles_actOn (c.absorb data).1).made
      refine (acts _ _ (reads.delivery data)).mono fun _ c' h' ⟨later, _⟩ => ?_
      exact ⟨later.of_same rfl, trivial⟩
    | _ => cases delivery

theorem reads_ofConfig (config : Config) (seed : UInt32) :
    Reads config (.ofConfig config seed) [] :=
  ⟨rfl, rfl, fun _ _ => ⟨rfl, rfl, rfl⟩, nofun⟩

theorem reads_of_reachable {allowed : Session → Turn → Prop} {config : Config} {seed : UInt32}
    {s : Session} (reachable : Session.ReachableBy allowed config seed s) :
    Reads config s.client s.history :=
  (Session.sound_of_assured (Call.assured_reading config) (reads_ofConfig config seed)
    reachable).holds

end WebSocket
