import Mathlib.Data.List.Forall2
import WebSocket.Proofs.Frame.Stream
import WebSocket.Proofs.Session.Legal
import WebSocket.Proofs.Session.Signals

/-!
# What the transport takes

The transport may take a part of a frame only, and a send that has run out of time says how much.
Frames are handed over one at a time: none before the transport has answered for the one before
(`Streaming`). So what it takes in an attempt is intact as long as it takes nothing after a part of
a frame (`stream_of_attempt`). The client itself goes on: a send that ran out of time leaves the
connection open.
-/

namespace WebSocket

open WebSocket.Action

/-! ### Transfers -/

/-- What the transport says of a frame. -/
inductive Report where
  /-- It took so many bytes. -/
  | took (count : Nat)
  | failed
  deriving DecidableEq, Repr

def Request.report? : (r : Request) → r.Answer → Option Report
  | send bytes, .ok _ => some (.took bytes.length)
  | sendWithin _ _, .ok count => some (.took count)
  | send _, .error _ | sendWithin _ _, .error _ => some .failed
  | sendAsync bytes, true => some (.took bytes.length)
  | sendAsync _, false => some (.took 0)
  | connect, _ | connectAsync, _ | disconnect, _ | disconnectAsync, _ | notify .., _
  | deliver .., _ => none

/-- A frame that was handed over. -/
structure Transfer where
  /-- The number of the attempt under way. -/
  attempt : Nat
  frame : Bytes
  /-- Nothing before the transport answers. -/
  report : Option Report := none
  deriving DecidableEq, Repr

namespace Transfer

/-- What the transport may have taken of a frame. -/
def Takes (t : Transfer) (taken : Bytes) : Prop :=
  match t.report with
  | some (.took count) => taken = t.frame.take count
  | some .failed | none => taken <+: t.frame

/-- The transport reports a part of the frame, or a failure. -/
def isShort (t : Transfer) : Bool :=
  match t.report with
  | some (.took count) => 0 < count && count < t.frame.length
  | some .failed => true
  | none => false

end Transfer

def transfers : List Moment → List Transfer
  | [] => []
  | .asked r :: h =>
    match r.frame? with
    | some frame => { attempt := attempts h, frame } :: transfers h
    | none => transfers h
  | .answered r answer :: h =>
    match r.report? answer with
    | some report => (transfers h).modifyHead fun t => { t with report := some report }
    | none => transfers h
  | .called _ :: h | .changed _ _ :: h | .returned _ :: h => transfers h

/-- The frames that were handed over in an attempt, in order. -/
def transfersOf (attempt : Nat) (h : List Moment) : List Transfer :=
  (transfers h).reverse.filter fun t => t.attempt = attempt

theorem Transfer.Takes.front {t : Transfer} {piece : Bytes} (takes : t.Takes piece) :
    piece <+: t.frame := by
  unfold Takes at takes
  split at takes
  · exact takes ▸ List.take_prefix _ _
  · exact takes
  · exact takes

theorem Transfer.Takes.of_report {t : Transfer} {piece : Bytes} (takes : t.Takes piece)
    (reported : t.report.isSome) : piece = [] ∨ piece = t.frame ∨ t.isShort := by
  unfold Takes at takes
  unfold isShort
  split at takes
  · rename_i count _
    by_cases some : 0 < count
    · by_cases short : count < t.frame.length
      · exact .inr (.inr (by simp [some, short]))
      · exact .inr (.inl (by rw [takes, List.take_of_length_le (by omega)]))
    · exact .inl (by rw [takes, Nat.eq_zero_of_not_pos some, List.take_zero])
  · exact .inr (.inr rfl)
  · rename_i report
    rw [report] at reported
    cases reported

/-- What is taken of frames that are handed over one at a time is intact, if nothing is taken after
a part of a frame. -/
theorem intact_of_takes {ts : List Transfer} {pieces : List Bytes}
    (takes : List.Forall₂ Transfer.Takes ts pieces) (frames : ∀ t ∈ ts, IsFrame t.frame)
    (reported : ∀ t ∈ ts.dropLast, t.report.isSome)
    (stops : (ts.zip pieces).Pairwise fun earlier later => earlier.1.isShort → later.2 = []) :
    Intact pieces.flatten := by
  induction takes with
  | nil => exact intact_nil
  | @cons t piece ts pieces took takes ih =>
    -- Only the last frame may be without a report. Of any other, nothing, all or a part was taken,
    -- and a part is the last that was taken at all.
    have isFrame := frames t List.mem_cons_self
    rw [List.zip_cons_cons, List.pairwise_cons] at stops
    rw [List.flatten_cons]
    by_cases last : ts = []
    · subst last
      cases takes
      rw [List.flatten_nil, List.append_nil]
      exact .part isFrame took.front
    rw [List.dropLast_cons_of_ne_nil last] at reported
    have rest : Intact pieces.flatten :=
      ih (fun t isIn => frames t (List.mem_cons_of_mem _ isIn))
        (fun t isIn => reported t (List.mem_cons_of_mem _ isIn)) stops.2
    rcases took.of_report (reported t List.mem_cons_self) with rfl | rfl | short
    · exact rest
    · exact .whole isFrame rest
    · have nothing : pieces.flatten = [] := by
        rw [List.flatten_eq_nil_iff]
        intro later isIn
        rw [← List.map_snd_zip takes.length_eq.ge] at isIn
        obtain ⟨pair, isPair, rfl⟩ := List.mem_map.mp isIn
        exact stops.1 pair isPair short
      rw [nothing, List.append_nil]
      exact .part isFrame took.front

/-! ### Frames leave one at a time -/

structure Streaming (c : Client) (h : List Moment) : Prop where
  frames : ∀ t ∈ transfers h, IsFrame t.frame
  single : ∀ t ∈ (transfers h).tail, t.report.isSome
  free : c.gate.isHeld = false → ∀ t ∈ transfers h, t.report.isSome

/-- Who holds the gate finds it held, and nothing handed over in the meantime. -/
def streaming : Duty where
  holds := Streaming
  keeps c h c' h' :=
    c'.gate.isHeld = c.gate.isHeld ∧ (c.gate.isHeld = true → transfers h' = transfers h)
  refl _ _ := ⟨rfl, fun _ => rfl⟩
  trans first later :=
    ⟨later.1.trans first.1, fun held => (later.2 (first.1.trans held)).trans (first.2 held)⟩

theorem Streaming.of_same {c c' : Client} {h h' : List Moment} (holds : Streaming c h)
    (gate : c'.gate.isHeld = c.gate.isHeld) (same : transfers h' = transfers h) :
    Streaming c' h' ∧ streaming.keeps c h c' h' := by
  refine ⟨⟨same ▸ holds.frames, same ▸ holds.single, fun free => ?_⟩, gate, fun _ => same⟩
  rw [same]
  exact holds.free (gate.symm.trans free)

theorem transfers_asked_none {r : Request} (other : r.frame? = none) (h : List Moment) :
    transfers (.asked r :: h) = transfers h := by
  rw [transfers, other]

theorem transfers_answered_none {r : Request} (other : r.frame? = none) (answer : r.Answer)
    (h : List Moment) : transfers (.answered r answer :: h) = transfers h := by
  cases r <;> first | rfl | cases other

theorem transfers_asked_frame {r : Request} {frame : Bytes} (isFrame : r.frame? = some frame)
    (h : List Moment) :
    transfers (.asked r :: h) = { attempt := attempts h, frame } :: transfers h := by
  rw [transfers, isFrame]

theorem report?_of_frame {r : Request} {frame : Bytes} (isFrame : r.frame? = some frame)
    (answer : r.Answer) : ∃ report, r.report? answer = some report := by
  cases r with
  | send bytes => cases answer <;> exact ⟨_, rfl⟩
  | sendWithin limit bytes => cases answer <;> exact ⟨_, rfl⟩
  | sendAsync bytes => cases answer <;> exact ⟨_, rfl⟩
  | _ => cases isFrame

theorem Streaming.asked {c : Client} {h : List Moment} (streaming : Streaming c h)
    (free : ∀ t ∈ transfers h, t.report.isSome) (held : c.gate.isHeld = true) {r : Request}
    {frame : Bytes} (handed : r.frame? = some frame) (isFrame : IsFrame frame) :
    Streaming c (.asked r :: h) := by
  have more := transfers_asked_frame handed h
  refine ⟨fun t isIn => ?_, ?_, fun notHeld => ?_⟩
  · rw [more] at isIn
    rcases List.mem_cons.mp isIn with rfl | isEarlier
    · exact isFrame
    · exact streaming.frames t isEarlier
  · rw [more]
    exact free
  · rw [held] at notHeld
    cases notHeld

theorem Streaming.answered {c : Client} {h : List Moment} (streaming : Streaming c h) {r : Request}
    {frame : Bytes} (handed : r.frame? = some frame) (answer : r.Answer) (c' : Client) :
    Streaming c' (.answered r answer :: h) := by
  obtain ⟨report, reported⟩ := report?_of_frame handed answer
  have same : transfers (.answered r answer :: h) =
      (transfers h).modifyHead fun t => { t with report := some report } := by
    rw [transfers, reported]
  obtain ⟨frames, single, -⟩ := streaming
  cases before : transfers h with
  | nil =>
    rw [before, List.modifyHead_nil] at same
    exact ⟨by simp [same], by simp [same], by simp [same]⟩
  | cons t earlier =>
    rw [before, List.modifyHead_cons] at same
    rw [before] at frames single
    have all : ∀ t' ∈ transfers (.answered r answer :: h), t'.report.isSome := by
      rw [same]
      intro t' isIn
      rcases List.mem_cons.mp isIn with rfl | isEarlier
      · rfl
      · exact single t' isEarlier
    refine ⟨?_, fun t' isIn => all t' (List.mem_of_mem_tail isIn), fun _ => all⟩
    rw [same]
    intro t' isIn
    rcases List.mem_cons.mp isIn with rfl | isEarlier
    · exact frames t List.mem_cons_self
    · exact frames t' (List.mem_cons_of_mem _ isEarlier)

theorem does_throughGate_streaming {α : Type} {consent : Client → Except Error Unit}
    {parcel : Parcel} {transmit : Bytes → Action α} (handsOver : HandsOver transmit) :
    (Client.throughGate consent parcel transmit).Does streaming Streaming := by
  intro c h holds
  refine assures_throughGate handsOver ?_ (fun _ _ => holds.of_same rfl rfl) ?_
  · exact fun held => ⟨holds, fun _ _ kept => kept.1.trans held⟩
  · intro free _ r key masks frame c₁
    have entering : Streaming c₁ (.changed c c₁ :: h) := ⟨holds.frames, holds.single, nofun⟩
    refine ⟨entering.asked (holds.free free) rfl frame ⟨parcel, key, rfl⟩, ?_⟩
    intro answer c' h' streaming' _ _
    have answered := streaming'.answered frame answer c'.leaveGate
    refine ⟨⟨answered.frames, answered.single, answered.free⟩, free.symm, fun held => ?_⟩
    rw [free] at held
    cases held

/-! ### Sessions -/

/-- Only the latest frame of all may be the last of an attempt. -/
theorem mem_tail_of_transfersOf {attempt : Nat} {h : List Moment} {t : Transfer}
    (earlier : t ∈ (transfersOf attempt h).dropLast) : t ∈ (transfers h).tail := by
  unfold transfersOf at earlier
  cases all : transfers h with
  | nil => simp [all] at earlier
  | cons latest rest =>
    rw [all, List.reverse_cons, List.filter_append] at earlier
    have before : t ∈ rest.reverse.filter fun t => t.attempt = attempt := by
      by_cases own : latest.attempt = attempt
      · simpa [own] using earlier
      · simpa [own] using List.dropLast_subset _ earlier
    exact List.mem_reverse.mp (List.mem_of_mem_filter before)

theorem suits_streaming (sends : Parcel → Prop) :
    streaming.Suits Advance (fun r => r.frame? = none) sends := by
  have tolerates : Tolerates streaming Advance fun r => r.frame? = none := by
    refine ⟨?_, ?_, ?_⟩
    · intro c c' h holds advance
      cases advance with
      | stroke stroke => exact holds.of_same (congrArg Gate.isHeld stroke.untouched.gate) rfl
      | absorb data => exact holds.of_same (congrArg Gate.isHeld (c.absorb_gate data)) rfl
    · intro c h r holds other
      exact holds.of_same rfl (transfers_asked_none other h)
    · intro c h r answer holds other
      exact holds.of_same rfl (transfers_answered_none other answer h)
  refine ⟨tolerates, fun _ => does_throughGate_streaming, ?_⟩
  intro β e change strokes _
  refine does_of_every tolerates (every_bind ?_ fun _ => every_step fun c _ => strokes c)
  exact every_notify (fun _ _ => .stroke (.of .look rfl)) fun _ => rfl

theorem Call.assured_streaming (call : Call) : call.Assured streaming :=
  Call.assured_of_does (call.composed.does (suits_streaming _))
    (fun _ _ holds => holds.of_same rfl rfl) fun _ _ _ holds => holds.of_same rfl rfl

theorem streaming_of_reachable {allowed : Session → Turn → Prop} {config : Config} {seed : UInt32}
    {s : Session} (reachable : Session.ReachableBy allowed config seed s) :
    Streaming s.client s.history := by
  have start : Streaming (.ofConfig config seed) [] :=
    ⟨by simp [transfers], by simp [transfers], by simp [transfers]⟩
  exact (Session.sound_of_assured Call.assured_streaming start reachable).holds

/-- In each attempt the client hands frames over one at a time. What the transport takes of them is
intact, if it takes nothing after it reported a part of a frame or a failure. -/
theorem stream_of_attempt {config : Config} {seed : UInt32} {s : Session}
    (reachable : Session.Reachable config seed s) (attempt : Nat) {pieces : List Bytes}
    (takes : List.Forall₂ Transfer.Takes (transfersOf attempt s.history) pieces) :
    (∀ t ∈ transfersOf attempt s.history, IsFrame t.frame) ∧
      (∀ t ∈ (transfersOf attempt s.history).dropLast, t.report.isSome) ∧
      (((transfersOf attempt s.history).zip pieces).Pairwise
          (fun earlier later => earlier.1.isShort → later.2 = []) →
        Intact pieces.flatten) := by
  obtain ⟨areFrames, single, -⟩ := streaming_of_reachable reachable
  have frames : ∀ t ∈ transfersOf attempt s.history, IsFrame t.frame := fun t isIn =>
    areFrames t (List.mem_reverse.mp (List.mem_of_mem_filter isIn))
  have reported : ∀ t ∈ (transfersOf attempt s.history).dropLast, t.report.isSome :=
    fun t isIn => single t (mem_tail_of_transfersOf isIn)
  exact ⟨frames, reported, intact_of_takes takes frames reported⟩

/-- A transport that takes so many bytes of a frame before time is up. -/
def takingOnly (count : Nat) : (r : Request) → r.Answer
  | .sendWithin _ _ => .ok count
  | r => r.takenUp

/-- A message is taken whole, and of the next all but the last byte. -/
def timedOut : List Choice :=
  openConnection ++ [.call (.send (.text "hello") none), .answer Request.takenUp,
    .call (.send (.binary [1, 2, 3, 4, 5]) (some (.seconds 1))), .answer (takingOnly 10)]

/-- What was taken until then, frame by frame. -/
def takenInTime : List Bytes :=
  [[129, 133, 169, 167, 98, 29, 193, 194, 14, 113, 198],
    [130, 133, 135, 253, 31, 111, 134, 255, 28, 107]]

theorem stream_of_attempt_timedOut :
    ∃ s, Session.after timedOut (.ofConfig {} 0) = some s ∧
      List.Forall₂ Transfer.Takes (transfersOf 1 s.history) takenInTime ∧
      ((transfersOf 1 s.history).zip takenInTime).Pairwise
        (fun earlier later => earlier.1.isShort → later.2 = []) ∧
      Intact takenInTime.flatten := by
  have played : (Session.after timedOut (.ofConfig {} 0)).map (fun s => transfersOf 1 s.history) =
      some [⟨1, [129, 133, 169, 167, 98, 29, 193, 194, 14, 113, 198], some (.took 11)⟩,
        ⟨1, [130, 133, 135, 253, 31, 111, 134, 255, 28, 107, 130], some (.took 10)⟩] := by
    decide +kernel
  obtain ⟨s, made, sent⟩ := Option.map_eq_some_iff.mp played
  have takes : List.Forall₂ Transfer.Takes (transfersOf 1 s.history) takenInTime := by
    rw [sent]
    exact .cons rfl (.cons rfl .nil)
  have stops : ((transfersOf 1 s.history).zip takenInTime).Pairwise
      fun earlier later => earlier.1.isShort → later.2 = [] := by
    rw [sent]
    decide
  obtain ⟨-, -, intact⟩ := stream_of_attempt (.after .start made) 1 takes
  exact ⟨s, made, takes, stops, intact stops⟩

/-- After a send that ran out of time the connection is open, and the next frame breaks the
stream. -/
theorem stream_broken_after_timeout :
    ∃ s pieces, Session.after (timedOut ++ [.call (.send (.text "hello") none),
        .answer Request.takenUp]) (.ofConfig {} 0) = some s ∧
      s.client.phase = .opened ∧ attempts s.history = 1 ∧
      List.Forall₂ Transfer.Takes (transfersOf 1 s.history) pieces ∧ ¬Intact pieces.flatten := by
  have played : (Session.after (timedOut ++ [.call (.send (.text "hello") none),
        .answer Request.takenUp]) (.ofConfig {} 0)).map
        (fun s => (s.client.phase, attempts s.history, transfersOf 1 s.history)) =
      some (.opened, 1,
        [⟨1, [129, 133, 169, 167, 98, 29, 193, 194, 14, 113, 198], some (.took 11)⟩,
          ⟨1, [130, 133, 135, 253, 31, 111, 134, 255, 28, 107, 130], some (.took 10)⟩,
          ⟨1, [129, 133, 129, 25, 220, 248, 233, 124, 176, 148, 238], some (.took 11)⟩]) := by
    decide +kernel
  obtain ⟨s, made, told⟩ := Option.map_eq_some_iff.mp played
  simp only [Prod.mk.injEq] at told
  obtain ⟨opened, one, sent⟩ := told
  refine ⟨s, takenInTime ++ [[129, 133, 129, 25, 220, 248, 233, 124, 176, 148, 238]], made,
    opened, one, ?_, ?_⟩
  · rw [sent]
    exact .cons rfl (.cons rfl (.cons rfl .nil))
  · -- The second frame swallows a byte of the third, whose next byte begins no frame.
    intro intact
    have second := intact.drop (n := 5) (by decide) rfl
    have third := second.drop (n := 5) (by decide) rfl
    exact absurd (third.front (by decide)) (by decide)

end WebSocket
