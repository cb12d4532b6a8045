import WebSocket.Proofs.Decoder.Deliveries

/-!
# Why reading fails, and how the bytes were cut

A frame is refused by several checks, which can be made after different numbers of bytes. So the
cause of a failure can depend on where the bytes were cut, in one place only: a frame whose opcode
is reserved and whose length exceeds the limit is refused for its length, unless a delivery ends
inside the length. `closeStatus_of_parts` says so for the status that goes with the cause.
-/

namespace WebSocket.Decoder

/-- The bytes begin a frame with a reserved opcode, and its length is not all there. -/
structure ReservedFront (bytes : Bytes) : Prop where
  reserved : ∃ first second tail, bytes = first :: second :: tail ∧
    Opcode.ofByte? (first &&& 0x0F) = none
  unannounced : Frame.announcedLength bytes = .ok none

/-- A delivery ends inside the length of a frame with a reserved opcode. -/
def CutInReserved (config : Config) (deliveries : List Bytes) : Prop :=
  ∃ n, ReservedFront
    ((ofConfig config).feed (deliveries.take n).flatten).drain.decoder.buffer

/-- The frame was refused for its length. -/
def Oversized (e : Error) : Prop := ∃ size max, e = .frameTooLarge size max

/-! ### One refusal -/

theorem ReservedFront.nextFrame_ne {d : Decoder} (front : ReservedFront d.buffer) :
    d.nextFrame ≠ .ok none := by
  obtain ⟨⟨first, second, tail, bytes, reserved⟩, unannounced⟩ := front
  by_cases masked : (Frame.isMasked second && !d.acceptMasked) = true
  · simp [nextFrame_masked bytes masked]
  have refused := Frame.parse_reserved reserved second tail
  rw [← bytes] at refused
  simp [nextFrame_unmasked bytes masked, checkAnnounced_unannounced unannounced, refused]

theorem Overtaken.reservedFront {d : Decoder} {more : Bytes} {e later : Error}
    (overtaken : Overtaken d more e later) (refused : d.nextFrame = .error e) :
    ReservedFront d.buffer := by
  obtain ⟨byte, rfl⟩ := overtaken.opcode
  obtain ⟨first, second, tail, front⟩ := front_of_nextFrame (d := d) (by simp [refused])
  refine ⟨⟨first, second, tail, front, ?_⟩, overtaken.unannounced⟩
  by_cases masked : (Frame.isMasked second && !d.acceptMasked) = true
  · rw [nextFrame_masked front masked] at refused
    cases refused
  rw [nextFrame_unmasked front masked,
    checkAnnounced_unannounced overtaken.unannounced] at refused
  cases assigned : Opcode.ofByte? (first &&& 0x0F) with
  | none => rfl
  | some op =>
    have missing : ∃ needed, Frame.parse d.buffer = .error (.incompleteFrame needed) := by
      have unannounced := overtaken.unannounced
      rw [front, Frame.announcedLength_eq_none_iff] at unannounced
      rw [front, Frame.parse_eq assigned]
      exact ⟨_, if_pos unannounced⟩
    obtain ⟨needed, missing⟩ := missing
    simp only [missing] at refused
    cases refused

/-- A length is refused because it exceeds the limit or because it exceeds every limit. -/
theorem checkAnnounced_error {limits : Limits} {bytes : Bytes} {e : Error}
    (h : checkAnnounced limits bytes = .error e) :
    Oversized e ∨ ∃ length, e = .lengthOverflow length := by
  unfold checkAnnounced at h
  split at h
  · rename_i e' overflow
    cases h
    right
    rcases bytes with - | ⟨first, - | ⟨second, rest⟩⟩
    · cases overflow
    · cases overflow
    rw [Frame.announcedLength_eq] at overflow
    split_ifs at overflow
    cases overflow
    exact ⟨_, rfl⟩
  · cases h
  · left
    unfold Limits.checkFrameSize at h
    split at h
    · cases h
    · cases h
      exact ⟨_, _, rfl⟩

/-! ### Frames that are refused after they were taken -/

/-- The causes that have to do with what a whole frame holds. -/
def isOfContent : Error → Bool
  | .protocolViolation _ | .invalidUtf8 | .messageTooLarge .. | .tooManyFragments ..
  | .invalidCloseCode _ | .invalidClosePayload | .fragmentedControlFrame
  | .controlFrameTooLarge _ | .reservedBitsSet => true
  | _ => false

theorem isOfContent_of_validate {frame : Frame} {e : Error} (h : frame.validate = .error e) :
    isOfContent e := by
  unfold Frame.validate at h
  repeat' split at h
  all_goals cases h
  all_goals rfl

theorem isOfContent_of_closeBody {payload : Bytes} {e : Error}
    (h : CloseBody.parse payload = .error e) : isOfContent e := by
  unfold CloseBody.parse at h
  split at h
  · cases h
  · cases h
    rfl
  · simp only at h
    split at h
    · cases h
      rfl
    · split at h <;> cases h
      rfl

theorem isOfContent_of_complete {kind : DataKind} {payload : Bytes} {e : Error}
    (h : Assembly.complete kind payload = .error e) : isOfContent e := by
  unfold Assembly.complete at h
  repeat' split at h
  all_goals cases h
  rfl

theorem isOfContent_of_push {a : Assembly} {frame : Frame} {e : Error}
    (h : (a.push frame).1 = .error e) : isOfContent e := by
  unfold Assembly.push at h
  cases kind : Assembly.kindFor a.kind frame.opcode with
  | error violation =>
    simp only [kind] at h
    cases h
    rfl
  | ok kind' =>
    simp only [kind] at h
    cases count : a.limits.checkFragments (a.fragments + 1) with
    | error e' =>
      simp only [count] at h
      cases h
      unfold Limits.checkFragments at count
      split at count <;> cases count
      rfl
    | ok _ =>
      cases size : a.limits.checkMessageSize (a.gathered.length + frame.payload.length) with
      | error e' =>
        simp only [count, size] at h
        cases h
        unfold Limits.checkMessageSize at size
        split at size <;> cases size
        rfl
      | ok _ =>
        simp only [count, size] at h
        split at h
        · cases finished : Assembly.complete kind' (a.gathered ++ frame.payload) with
          | error e' =>
            simp only [finished] at h
            cases h
            exact isOfContent_of_complete finished
          | ok message =>
            simp only [finished] at h
            cases h
        · cases h

theorem isOfContent_of_accept {d : Decoder} {frame : Frame} {e : Error}
    (h : (d.accept frame).1 = .error e) : isOfContent e := by
  unfold accept at h
  cases valid : frame.validate with
  | error e' =>
    simp only [valid] at h
    cases h
    exact isOfContent_of_validate valid
  | ok _ =>
    simp only [valid] at h
    cases opcode : frame.opcode with
    | ping => simp [opcode] at h
    | pong => simp [opcode] at h
    | close =>
      simp only [opcode] at h
      cases body : CloseBody.parse frame.payload with
      | error e' =>
        simp only [body] at h
        cases h
        exact isOfContent_of_closeBody body
      | ok _ =>
        simp only [body] at h
        cases h
    | text | binary | continuation =>
      simp only [opcode] at h
      cases pushed : (d.assembly.push frame).1 with
      | error e' =>
        simp only [pushed] at h
        cases h
        exact isOfContent_of_push pushed
      | ok _ =>
        simp only [pushed] at h
        cases h

/-! ### The cause of a failure -/

theorem nextEvent_error {d rest : Decoder} {e : Error} (h : d.nextEvent = (.error e, rest)) :
    isOfContent e ∨ rest.nextFrame = .error e := by
  fun_induction nextEvent d with
  | case1 d e' refused =>
    cases h
    exact .inr refused
  | case2 d missing => cases h
  | case3 d frame rest' taken _ quiet ih => exact ih h
  | case4 d frame rest' taken result loud =>
    left
    obtain ⟨failed, -⟩ := Prod.mk.inj h
    exact isOfContent_of_accept failed

theorem nextFrame_error_unannounced {d : Decoder} {e : Error} (h : d.nextFrame = .error e)
    (unannounced : Frame.announcedLength d.buffer = .ok none) : ¬Oversized e := by
  rintro ⟨size, max, rfl⟩
  obtain ⟨first, second, tail, front⟩ := front_of_nextFrame (d := d) (by simp [h])
  by_cases masked : (Frame.isMasked second && !d.acceptMasked) = true
  · rw [nextFrame_masked front masked] at h
    cases h
  rw [nextFrame_unmasked front masked, checkAnnounced_unannounced unannounced] at h
  rcases Frame.parse_unannounced unannounced with ⟨_, missing⟩ | ⟨_, reserved⟩
  · simp only [missing] at h
    cases h
  · simp only [reserved] at h
    cases h

theorem announced_of_oversized {d : Decoder} {e : Error} (failed : d.drain.fault = some e)
    (oversized : Oversized e) : Frame.announcedLength d.drain.decoder.buffer ≠ .ok none := by
  induction d using drain_induction with
  | error d e' rest h =>
    rw [drain_of_error h] at failed ⊢
    cases failed
    intro unannounced
    rcases nextEvent_error h with content | refused
    · obtain ⟨size, max, rfl⟩ := oversized
      cases content
    · exact nextFrame_error_unannounced refused unannounced oversized
  | none d rest h => simp [drain_of_none h] at failed
  | some d event rest h ih =>
    rw [drain_of_some h] at failed ⊢
    exact ih failed

theorem drainEach_eq_drain_of_failure {d : Decoder} (idle : d.nextFrame = .ok none)
    (deliveries : List Bytes) {e : Error} (failed : (d.drainEach deliveries).fault = some e) :
    ∃ n, d.drainEach deliveries = (d.feed (deliveries.take n).flatten).drain ∧
      ∀ m < n, (d.feed (deliveries.take m).flatten).drain.fault = none := by
  induction deliveries generalizing d with
  | nil => cases failed
  | cons delivery later ih =>
    have start : (d.feed ((delivery :: later).take 0).flatten).drain.fault = none := by
      rw [List.take_zero, List.flatten_nil, feed_nil, drain_of_none (nextEvent_of_none idle)]
    cases first : (d.feed delivery).drain.fault with
    | some e' =>
      refine ⟨1, ?_, ?_⟩
      · rw [drainEach_of_fault first]
        simp
      · intro m below
        obtain rfl : m = 0 := by omega
        exact start
    | none =>
      rw [drainEach_of_sound first] at failed ⊢
      obtain ⟨n, parts, sound⟩ := ih (nextFrame_drain first) failed
      refine ⟨n + 1, ?_, ?_⟩
      · rw [parts, List.take_succ_cons, List.flatten_cons, ← feed_feed, drain_feed _ _ first]
      · intro m below
        cases m with
        | zero => exact start
        | succ m =>
          rw [List.take_succ_cons, List.flatten_cons, ← feed_feed, drain_feed _ _ first]
          exact sound m (by omega)

theorem flatten_take_append {n m : Nat} (le : n ≤ m) (deliveries : List Bytes) :
    (deliveries.take n).flatten ++ ((deliveries.take m).drop n).flatten =
      (deliveries.take m).flatten := by
  have first : deliveries.take n = (deliveries.take m).take n := by
    rw [List.take_take, Nat.min_eq_left le]
  rw [← List.flatten_append, first, List.take_append_drop]

theorem left_of_failure {config : Config} {deliveries : List Bytes} {n m : Nat} {e : Error}
    (failed : ((ofConfig config).feed (deliveries.take n).flatten).drain.fault = some e)
    (le : n ≤ m) :
    ((ofConfig config).feed (deliveries.take m).flatten).drain.decoder =
      ((ofConfig config).feed (deliveries.take n).flatten).drain.decoder.feed
        ((deliveries.take m).drop n).flatten := by
  obtain ⟨later, grown, -⟩ := drain_feed_of_fault _ ((deliveries.take m).drop n).flatten failed
  rw [feed_feed, flatten_take_append le] at grown
  rw [grown]

/-- Where the cut shows, no delivery before was refused for the length. -/
theorem not_oversized_of_cut {config : Config} {deliveries : List Bytes} {n : Nat} {e : Error}
    (failed : ((ofConfig config).feed (deliveries.take n).flatten).drain.fault = some e)
    (sound : ∀ m < n, ((ofConfig config).feed (deliveries.take m).flatten).drain.fault = none)
    (cut : CutInReserved config deliveries) : ¬Oversized e := by
  intro oversized
  obtain ⟨m, front⟩ := cut
  have le : n ≤ m :=
    Nat.le_of_not_lt fun below => front.nextFrame_ne (nextFrame_drain (sound m below))
  have announced := announced_of_oversized failed oversized
  have unannounced := front.unannounced
  rw [left_of_failure failed le, feed_buffer,
    Frame.announcedLength_append _ _ announced] at unannounced
  exact announced unannounced

/-- The status that goes with a failure is that of the bytes in one piece, unless they are refused
for a length that a delivery cut in a frame with a reserved opcode: then it is 1002. -/
theorem closeStatus_of_parts (config : Config) (deliveries : List Bytes) {e : Error}
    (failed : ((ofConfig config).feed deliveries.flatten).drain.fault = some e) :
    ∃ cause, ((ofConfig config).drainEach deliveries).fault = some cause ∧
      (Oversized e ∧ CutInReserved config deliveries → cause.closeStatus = 1002) ∧
      (¬(Oversized e ∧ CutInReserved config deliveries) →
        cause.closeStatus = e.closeStatus) := by
  obtain ⟨-, fails, -⟩ := drainEach_ofConfig config deliveries
  rw [failed, Option.isSome_some, Option.isSome_iff_exists] at fails
  obtain ⟨cause, parts⟩ := fails
  obtain ⟨n, same, sound⟩ :=
    drainEach_eq_drain_of_failure (nextFrame_ofConfig config) deliveries parts
  rw [same] at parts
  obtain ⟨later, grown, origin⟩ := drain_feed_of_fault _ (deliveries.drop n).flatten parts
  rw [feed_feed, ← List.flatten_append, List.take_append_drop] at grown
  rw [grown] at failed
  obtain rfl : later = e := by simpa using failed
  refine ⟨cause, by rw [same, parts], ?_, ?_⟩
  · rintro ⟨oversized, cut⟩
    rcases origin with rfl | ⟨-, overtaken⟩
    · exact absurd oversized (not_oversized_of_cut parts sound cut)
    · obtain ⟨byte, rfl⟩ := overtaken.opcode
      rfl
  · intro uncut
    rcases origin with rfl | ⟨refused, overtaken⟩
    · rfl
    have front := overtaken.reservedFront refused
    rcases checkAnnounced_error overtaken.length with oversized | ⟨length, rfl⟩
    · exact absurd ⟨oversized, n, front⟩ uncut
    · obtain ⟨byte, rfl⟩ := overtaken.opcode
      rfl

end WebSocket.Decoder
