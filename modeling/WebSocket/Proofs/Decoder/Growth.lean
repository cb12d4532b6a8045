import WebSocket.Decoder
import WebSocket.Proofs.Frame.Growth

/-!
# A decoder that is fed more

What a decoder gives does not depend on the bytes behind it. A frame, an event and the events up to
a failure stay as they are when the decoder is fed more before they are taken, and the bytes that
were added are left over behind them. Only the refusal itself can be another one: a reserved opcode
is refused as soon as it is there, but once the length is there the length is checked first
(`Overtaken`).
-/

namespace WebSocket.Decoder

@[simp] theorem feed_buffer (d : Decoder) (data : Bytes) :
    (d.feed data).buffer = d.buffer ++ data := rfl

@[simp] theorem feed_assembly (d : Decoder) (data : Bytes) :
    (d.feed data).assembly = d.assembly := rfl

@[simp] theorem feed_nil (d : Decoder) : d.feed [] = d := by
  simp only [feed, List.append_nil]

theorem feed_feed (d : Decoder) (data more : Bytes) :
    (d.feed data).feed more = d.feed (data ++ more) := by
  simp only [feed, List.append_assoc]

/-! ### Frames -/

/-- The opcode at the front was refused before the length was there, and the length that has come
since is refused before the opcode is looked at. -/
structure Overtaken (d : Decoder) (more : Bytes) (e later : Error) : Prop where
  unannounced : Frame.announcedLength d.buffer = .ok none
  opcode : ∃ byte, e = .reservedOpcode byte
  length : checkAnnounced d.assembly.limits (d.buffer ++ more) = .error later

theorem checkAnnounced_append (limits : Limits) (bytes more : Bytes)
    (known : Frame.announcedLength bytes ≠ .ok none) :
    checkAnnounced limits (bytes ++ more) = checkAnnounced limits bytes := by
  simp only [checkAnnounced, Frame.announcedLength_append bytes more known]

theorem checkAnnounced_unannounced {limits : Limits} {bytes : Bytes}
    (unannounced : Frame.announcedLength bytes = .ok none) :
    checkAnnounced limits bytes = .ok () := by
  simp only [checkAnnounced, unannounced]

theorem nextFrame_masked {d : Decoder} {first second : UInt8} {tail : Bytes}
    (front : d.buffer = first :: second :: tail)
    (masked : (Frame.isMasked second && !d.acceptMasked) = true) :
    d.nextFrame = .error .maskedServerFrame := by
  simp only [nextFrame, front]
  exact if_pos masked

theorem nextFrame_unmasked {d : Decoder} {first second : UInt8} {tail : Bytes}
    (front : d.buffer = first :: second :: tail)
    (unmasked : ¬(Frame.isMasked second && !d.acceptMasked) = true) :
    d.nextFrame =
      match checkAnnounced d.assembly.limits d.buffer with
      | .error e => .error e
      | .ok _ =>
        match Frame.parse d.buffer with
        | .ok (frame, used) => .ok (some (frame, { d with buffer := d.buffer.drop used }))
        | .error (.incompleteFrame _) => .ok none
        | .error e => .error e := by
  simp only [nextFrame, front]
  exact if_neg unmasked

theorem front_of_nextFrame {d : Decoder} (h : d.nextFrame ≠ .ok none) :
    ∃ first second tail, d.buffer = first :: second :: tail := by
  unfold nextFrame at h
  split at h
  · rename_i first second tail front
    exact ⟨first, second, tail, front⟩
  · exact absurd rfl h

theorem front_feed {d : Decoder} {first second : UInt8} {tail : Bytes}
    (front : d.buffer = first :: second :: tail) (more : Bytes) :
    (d.feed more).buffer = first :: second :: (tail ++ more) := by
  rw [feed_buffer, front]
  rfl

theorem nextFrame_feed_some {d rest : Decoder} {frame : Frame}
    (h : d.nextFrame = .ok (some (frame, rest))) (more : Bytes) :
    (d.feed more).nextFrame = .ok (some (frame, rest.feed more)) := by
  obtain ⟨first, second, tail, front⟩ := front_of_nextFrame (d := d) (by simp [h])
  by_cases masked : (Frame.isMasked second && !d.acceptMasked) = true
  · rw [nextFrame_masked front masked] at h
    cases h
  rw [nextFrame_unmasked front masked] at h
  rw [nextFrame_unmasked (front_feed front more) masked]
  simp only [feed_buffer, feed_assembly]
  cases checked : checkAnnounced d.assembly.limits d.buffer with
  | error e =>
    simp only [checked] at h
    cases h
  | ok passed =>
    cases parsed : Frame.parse d.buffer with
    | error e => cases e <;> simp [checked, parsed] at h
    | ok result =>
      obtain ⟨frame', used⟩ := result
      have known : Frame.announcedLength d.buffer ≠ .ok none := by
        intro unannounced
        rcases Frame.parse_unannounced unannounced with ⟨_, other⟩ | ⟨_, other⟩
        · rw [parsed] at other
          cases other
        · rw [parsed] at other
          cases other
      have bounds := Frame.bounds_of_parse parsed
      simp only [checked, parsed, Except.ok.injEq, Option.some.injEq, Prod.mk.injEq] at h
      obtain ⟨rfl, rfl⟩ := h
      rw [checkAnnounced_append _ _ more known, checked,
        Frame.parse_append _ more (by simp [parsed]), parsed]
      simp only [feed, List.drop_append_of_le_length bounds.2]

theorem nextFrame_feed_error {d : Decoder} {e : Error} (h : d.nextFrame = .error e)
    (more : Bytes) :
    (d.feed more).nextFrame = .error e ∨
      ∃ later, Overtaken d more e later ∧ (d.feed more).nextFrame = .error later := by
  obtain ⟨first, second, tail, front⟩ := front_of_nextFrame (d := d) (by simp [h])
  by_cases masked : (Frame.isMasked second && !d.acceptMasked) = true
  · rw [nextFrame_masked front masked] at h
    rw [nextFrame_masked (front_feed front more) masked]
    exact .inl h
  rw [nextFrame_unmasked front masked] at h
  rw [nextFrame_unmasked (front_feed front more) masked]
  simp only [feed_buffer, feed_assembly]
  by_cases unannounced : Frame.announcedLength d.buffer = .ok none
  · -- The length is still to come, so only the opcode can have been refused.
    simp only [checkAnnounced_unannounced unannounced] at h
    rcases Frame.parse_unannounced unannounced with ⟨needed, missing⟩ | ⟨byte, reserved⟩
    · simp only [missing] at h
      cases h
    simp only [reserved] at h
    cases h
    rw [Frame.parse_append _ more (by simp [reserved]), reserved]
    cases checked : checkAnnounced d.assembly.limits (d.buffer ++ more) with
    | ok _ => exact .inl rfl
    | error later => exact .inr ⟨later, ⟨unannounced, ⟨byte, rfl⟩, checked⟩, rfl⟩
  · left
    rw [checkAnnounced_append _ _ more unannounced]
    cases checked : checkAnnounced d.assembly.limits d.buffer with
    | error refused =>
      simp only [checked] at h ⊢
      exact congrArg _ (Except.error.inj h)
    | ok passed =>
      simp only [checked] at h ⊢
      have settled : ∀ needed, Frame.parse d.buffer ≠ .error (.incompleteFrame needed) := by
        intro needed missing
        simp only [missing] at h
        cases h
      rw [Frame.parse_append _ more settled]
      cases parsed : Frame.parse d.buffer with
      | ok result =>
        simp only [parsed] at h
        cases h
      | error refused =>
        simp only [parsed] at h
        cases refused <;> exact h

/-! ### Events -/

theorem accept_feed (d : Decoder) (frame : Frame) (more : Bytes) :
    (d.feed more).accept frame = ((d.accept frame).1, (d.accept frame).2.feed more) := by
  unfold accept
  cases frame.validate with
  | error e => rfl
  | ok valid => cases frame.opcode <;> rfl

theorem nextEvent_of_error {d : Decoder} {e : Error} (h : d.nextFrame = .error e) :
    d.nextEvent = (.error e, d) := by
  rw [nextEvent]
  split <;> simp_all

theorem nextEvent_of_none {d : Decoder} (h : d.nextFrame = .ok none) :
    d.nextEvent = (.ok none, d) := by
  rw [nextEvent]
  split <;> simp_all

theorem nextEvent_of_quiet {d rest : Decoder} {frame : Frame}
    (taken : d.nextFrame = .ok (some (frame, rest))) (quiet : (rest.accept frame).1 = .ok none) :
    d.nextEvent = (rest.accept frame).2.nextEvent := by
  rw [nextEvent]
  split <;> simp_all

theorem nextEvent_of_loud {d rest : Decoder} {frame : Frame}
    (taken : d.nextFrame = .ok (some (frame, rest))) (loud : (rest.accept frame).1 ≠ .ok none) :
    d.nextEvent = rest.accept frame := by
  rw [nextEvent]
  split <;> simp_all

/-- Where a search for an event ended at the front of the decoder it left, because no frame is
there or because the frame there is refused, it goes on from there when the decoder is fed more.
Otherwise it ends the same way. -/
theorem nextEvent_feed (d : Decoder) (more : Bytes) :
    d.nextEvent.1 ≠ .ok none ∧
        (d.feed more).nextEvent = (d.nextEvent.1, d.nextEvent.2.feed more) ∨
      d.nextEvent = d.nextEvent.2.nextEvent ∧
        (d.nextEvent.2.nextFrame = .ok none ∨ ∃ e, d.nextEvent.2.nextFrame = .error e) ∧
        (d.feed more).nextEvent = (d.nextEvent.2.feed more).nextEvent := by
  fun_induction nextEvent d with
  | case1 d e refused => exact .inr ⟨(nextEvent_of_error refused).symm, .inr ⟨e, refused⟩, rfl⟩
  | case2 d missing => exact .inr ⟨(nextEvent_of_none missing).symm, .inl missing, rfl⟩
  | case3 d frame rest taken _ quiet ih =>
    have grown := nextFrame_feed_some taken more
    have still : ((rest.feed more).accept frame).1 = .ok none := by
      rw [accept_feed]
      exact quiet
    rw [nextEvent_of_quiet grown still, accept_feed]
    exact ih
  | case4 d frame rest taken result loud =>
    have grown := nextFrame_feed_some taken more
    have still : ((rest.feed more).accept frame).1 ≠ .ok none := by
      rw [accept_feed]
      exact loud
    refine .inl ⟨loud, ?_⟩
    rw [nextEvent_of_loud grown still, accept_feed]

theorem nextEvent_feed_some {d rest : Decoder} {event : Event}
    (h : d.nextEvent = (.ok (some event), rest)) (more : Bytes) :
    (d.feed more).nextEvent = (.ok (some event), rest.feed more) := by
  rcases nextEvent_feed d more with ⟨-, same⟩ | ⟨again, front, -⟩
  · rw [same, h]
  · rcases front with missing | ⟨e, refused⟩
    · rw [again, nextEvent_of_none missing] at h
      cases h
    · rw [again, nextEvent_of_error refused] at h
      cases h

theorem nextEvent_feed_none {d rest : Decoder} (h : d.nextEvent = (.ok none, rest))
    (more : Bytes) : (d.feed more).nextEvent = (rest.feed more).nextEvent := by
  rcases nextEvent_feed d more with ⟨found, -⟩ | ⟨-, -, on⟩
  · rw [h] at found
    exact absurd rfl found
  · rw [on, h]

theorem nextFrame_of_nextEvent_none {d rest : Decoder} (h : d.nextEvent = (.ok none, rest)) :
    rest.nextFrame = .ok none := by
  rcases nextEvent_feed d [] with ⟨found, -⟩ | ⟨again, front, -⟩
  · rw [h] at found
    exact absurd rfl found
  · rw [h] at again front
    rcases front with missing | ⟨e, refused⟩
    · exact missing
    · rw [nextEvent_of_error refused] at again
      cases again

theorem nextEvent_feed_error {d rest : Decoder} {e : Error} (h : d.nextEvent = (.error e, rest))
    (more : Bytes) :
    (d.feed more).nextEvent = (.error e, rest.feed more) ∨
      rest.nextFrame = .error e ∧
        ∃ later, Overtaken rest more e later ∧
          (d.feed more).nextEvent = (.error later, rest.feed more) := by
  rcases nextEvent_feed d more with ⟨-, same⟩ | ⟨again, front, on⟩
  · left
    rw [same, h]
  rw [h] at again front on
  rcases front with missing | ⟨e', refused⟩
  · rw [nextEvent_of_none missing] at again
    cases again
  rw [nextEvent_of_error refused] at again
  cases again
  rw [on]
  rcases nextFrame_feed_error refused more with still | ⟨later, overtaken, grown⟩
  · exact .inl (nextEvent_of_error still)
  · exact .inr ⟨refused, later, overtaken, nextEvent_of_error grown⟩

/-! ### All events -/

/-- What came before and what came after, as one. -/
def Drained.after (events : List Event) (later : Drained) : Drained :=
  { later with events := events ++ later.events }

theorem Drained.after_after (first second : List Event) (later : Drained) :
    (later.after second).after first = later.after (first ++ second) := by
  simp only [Drained.after, List.append_assoc]

theorem drainFrom_of_error {isLast : Event → Bool} {d rest : Decoder} {e : Error}
    (h : d.nextEvent = (.error e, rest)) (events : List Event) :
    drainFrom isLast events d = ⟨events.reverse, some e, rest⟩ := by
  rw [drainFrom]
  split <;> simp_all

theorem drainFrom_of_none {isLast : Event → Bool} {d rest : Decoder}
    (h : d.nextEvent = (.ok none, rest)) (events : List Event) :
    drainFrom isLast events d = ⟨events.reverse, none, rest⟩ := by
  rw [drainFrom]
  split <;> simp_all

theorem drainFrom_of_last {isLast : Event → Bool} {d rest : Decoder} {event : Event}
    (h : d.nextEvent = (.ok (some event), rest)) (last : isLast event = true)
    (events : List Event) :
    drainFrom isLast events d = ⟨(event :: events).reverse, none, rest⟩ := by
  rw [drainFrom]
  split <;> simp_all

theorem drainFrom_of_some {isLast : Event → Bool} {d rest : Decoder} {event : Event}
    (h : d.nextEvent = (.ok (some event), rest)) (notLast : isLast event = false)
    (events : List Event) :
    drainFrom isLast events d = drainFrom isLast (event :: events) rest := by
  rw [drainFrom]
  split <;> simp_all

theorem drainFrom_append (isLast : Event → Bool) (events earlier : List Event) (d : Decoder) :
    drainFrom isLast (events ++ earlier) d =
      (drainFrom isLast events d).after earlier.reverse := by
  fun_induction drainFrom isLast events d with
  | case1 events d e rest taken => simp [drainFrom_of_error taken, Drained.after]
  | case2 events d rest taken => simp [drainFrom_of_none taken, Drained.after]
  | case3 events d event rest taken _ last => simp [drainFrom_of_last taken last, Drained.after]
  | case4 events d event rest taken _ notLast ih =>
    rw [drainFrom_of_some taken (by simpa using notLast), ← List.cons_append, ih]

theorem drainFrom_cons {isLast : Event → Bool} {d rest : Decoder} {event : Event}
    (h : d.nextEvent = (.ok (some event), rest)) (notLast : isLast event = false) :
    drainFrom isLast [] d = (drainFrom isLast [] rest).after [event] := by
  rw [drainFrom_of_some h notLast]
  exact drainFrom_append isLast [] [event] rest

theorem drain_of_error {d rest : Decoder} {e : Error} (h : d.nextEvent = (.error e, rest)) :
    d.drain = ⟨[], some e, rest⟩ := drainFrom_of_error h []

theorem drain_of_none {d rest : Decoder} (h : d.nextEvent = (.ok none, rest)) :
    d.drain = ⟨[], none, rest⟩ := drainFrom_of_none h []

theorem drain_of_some {d rest : Decoder} {event : Event}
    (h : d.nextEvent = (.ok (some event), rest)) : d.drain = rest.drain.after [event] :=
  drainFrom_cons h rfl

theorem drain_induction {motive : Decoder → Prop}
    (error : ∀ d e rest, d.nextEvent = (.error e, rest) → motive d)
    (none : ∀ d rest, d.nextEvent = (.ok none, rest) → motive d)
    (some : ∀ d event rest, d.nextEvent = (.ok (some event), rest) → motive rest → motive d)
    (d : Decoder) : motive d := by
  have key : ∀ n (d : Decoder), d.buffer.length = n → motive d := by
    intro n
    induction n using Nat.strongRecOn with
    | ind n ih =>
      intro d size
      rcases found : d.nextEvent with ⟨e | event | event, rest⟩
      · exact error d e rest found
      · exact none d rest found
      · refine some d event rest found (ih rest.buffer.length ?_ rest rfl)
        have shorter := @length_of_nextEvent d event (by rw [found])
        simp only [found] at shorter
        omega
  exact key d.buffer.length d rfl

theorem drain_congr {d other : Decoder} (h : d.nextEvent = other.nextEvent) :
    d.drain = other.drain := by
  rcases found : other.nextEvent with ⟨e | event | event, rest⟩
  · rw [drain_of_error found, drain_of_error (h.trans found)]
  · rw [drain_of_none found, drain_of_none (h.trans found)]
  · rw [drain_of_some found, drain_of_some (h.trans found)]

theorem nextFrame_drain {d : Decoder} (sound : d.drain.fault = none) :
    d.drain.decoder.nextFrame = .ok none := by
  induction d using drain_induction with
  | error d e rest h => simp [drain_of_error h] at sound
  | none d rest h =>
    rw [drain_of_none h]
    exact nextFrame_of_nextEvent_none h
  | some d event rest h ih =>
    rw [drain_of_some h] at sound ⊢
    exact ih sound

theorem drain_feed (d : Decoder) (more : Bytes) (sound : d.drain.fault = none) :
    (d.feed more).drain = (d.drain.decoder.feed more).drain.after d.drain.events := by
  induction d using drain_induction with
  | error d e rest h => simp [drain_of_error h] at sound
  | none d rest h =>
    rw [drain_of_none h, drain_congr (nextEvent_feed_none h more)]
    rfl
  | some d event rest h ih =>
    rw [drain_of_some h] at sound ⊢
    rw [drain_of_some (nextEvent_feed_some h more), ih sound, Drained.after_after]
    rfl

/-- A drain that failed fails after the same events when the decoder is fed more, for the same
cause or for a length that was not there before. -/
theorem drain_feed_of_fault (d : Decoder) (more : Bytes) {e : Error}
    (failed : d.drain.fault = some e) :
    ∃ later, (d.feed more).drain = ⟨d.drain.events, some later, d.drain.decoder.feed more⟩ ∧
      (later = e ∨ d.drain.decoder.nextFrame = .error e ∧
        Overtaken d.drain.decoder more e later) := by
  induction d using drain_induction with
  | error d e' rest h =>
    rw [drain_of_error h] at failed ⊢
    cases failed
    rcases nextEvent_feed_error h more with same | ⟨refused, later, overtaken, grown⟩
    · exact ⟨e, drain_of_error same, .inl rfl⟩
    · exact ⟨later, drain_of_error grown, .inr ⟨refused, overtaken⟩⟩
  | none d rest h => simp [drain_of_none h] at failed
  | some d event rest h ih =>
    rw [drain_of_some h] at failed ⊢
    obtain ⟨later, grown, cause⟩ := ih failed
    refine ⟨later, ?_, cause⟩
    rw [drain_of_some (nextEvent_feed_some h more), grown]
    rfl

end WebSocket.Decoder
