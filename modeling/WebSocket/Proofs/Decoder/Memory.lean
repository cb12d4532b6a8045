import WebSocket.Proofs.Decoder.Deliveries
import WebSocket.Proofs.Decoder.Grammar
import WebSocket.Proofs.Decoder.Reset
import WebSocket.Proofs.Frame.Extent
import WebSocket.Proofs.Message.Refusal

/-!
# What a decoder holds

A server decides what it sends, and the limits decide how much of it is ever held. Whatever is done
with a decoder (`Use`), what it holds of a message stays within the limits, and so does every
message it gives. Once it has nothing more to give, the bytes it holds are fewer than those of a
frame of the largest size: a larger one is refused by its length, which comes before the payload
(`memory_of_use`).
-/

namespace WebSocket

namespace Decoder

/-! ### Bytes -/

/-- What a frame may take besides its payload. -/
def overhead (acceptMasked : Bool) : Nat := if acceptMasked then 14 else 10

theorem incomplete_of_nextFrame_none {d : Decoder} {first second : UInt8} {rest : Bytes}
    (front : d.buffer = first :: second :: rest) (idle : d.nextFrame = .ok none) :
    ¬(Frame.isMasked second && !d.acceptMasked) = true ∧
      checkAnnounced d.assembly.limits d.buffer = .ok () ∧
      ∃ needed, Frame.parse d.buffer = .error (.incompleteFrame needed) := by
  by_cases masked : (Frame.isMasked second && !d.acceptMasked) = true
  · rw [nextFrame_masked front masked] at idle
    cases idle
  refine ⟨masked, ?_⟩
  rw [nextFrame_unmasked front masked] at idle
  cases checked : checkAnnounced d.assembly.limits d.buffer with
  | error e => simp [checked] at idle
  | ok _ =>
    simp only [checked] at idle
    cases parsed : Frame.parse d.buffer with
    | ok result => simp [parsed] at idle
    | error e =>
      cases e with
      | incompleteFrame needed => exact ⟨rfl, needed, rfl⟩
      | _ => simp [parsed] at idle

theorem spelledLength_of_checkAnnounced {limits : Limits} {first second : UInt8} {rest : Bytes}
    (announced : Frame.lengthSize second ≤ rest.length)
    (checked : checkAnnounced limits (first :: second :: rest) = .ok ()) :
    Frame.spelledLength second rest ≤ limits.maxFrameSize := by
  rw [checkAnnounced, Frame.announcedLength_eq, if_neg (Nat.not_lt.mpr announced)] at checked
  by_cases small : Frame.spelledLength second rest < 2 ^ 63
  · rw [if_pos small] at checked
    by_contra large
    simp only [Limits.checkFrameSize, large, if_false] at checked
    cases checked
  · rw [if_neg small] at checked
    cases checked

theorem buffered_of_nextFrame_none {d : Decoder} (idle : d.nextFrame = .ok none) :
    d.buffered < d.assembly.limits.maxFrameSize + overhead d.acceptMasked := by
  have least : 10 ≤ overhead d.acceptMasked := by unfold overhead; split <;> decide
  unfold buffered
  rcases front : d.buffer with - | ⟨first, - | ⟨second, rest⟩⟩
  · simp only [List.length_nil]
    omega
  · simp only [List.length_cons, List.length_nil]
    omega
  obtain ⟨unmasked, checked, needed, missing⟩ := incomplete_of_nextFrame_none front idle
  have key : 10 + Frame.keySize second ≤ overhead d.acceptMasked := by
    unfold Frame.keySize
    split
    · simp_all [overhead]
    · exact least
  rw [front] at checked missing
  obtain ⟨op, assigned⟩ := Frame.assigned_of_parse missing nofun
  obtain ⟨asked, ends, -⟩ :=
    (Frame.parse_eq_incomplete_iff assigned second rest needed).mp missing
  have small := Frame.lengthSize_le second
  simp only [List.length_cons]
  by_cases announced : Frame.lengthSize second ≤ rest.length
  · have fits := spelledLength_of_checkAnnounced announced checked
    have most := Frame.awaited_le second rest
    omega
  · omega

/-- A frame that announces too much is refused for its length, or for a mask before that. -/
theorem nextEvent_of_oversized {d : Decoder} {length size : Nat}
    (announced : Frame.announcedLength d.buffer = .ok (some (length, size)))
    (large : d.assembly.limits.maxFrameSize < length) :
    d.nextEvent = (.error (.frameTooLarge length d.assembly.limits.maxFrameSize), d) ∨
      d.acceptMasked = false ∧ d.nextEvent = (.error .maskedServerFrame, d) := by
  have bounds := Frame.bounds_of_announcedLength announced
  rcases front : d.buffer with - | ⟨first, - | ⟨second, tail⟩⟩
  · simp only [front, List.length_nil] at bounds
    omega
  · simp only [front, List.length_cons, List.length_nil] at bounds
    omega
  by_cases masked : (Frame.isMasked second && !d.acceptMasked) = true
  · right
    simp only [Bool.and_eq_true, Bool.not_eq_true'] at masked
    exact ⟨masked.2, nextEvent_of_error (nextFrame_masked front (by simpa using masked))⟩
  · left
    apply nextEvent_of_error
    have refused : ¬length ≤ d.assembly.limits.maxFrameSize := by omega
    simp [nextFrame_unmasked front masked, checkAnnounced, announced, Limits.checkFrameSize,
      refused]

theorem nextEvent_of_overflow {d : Decoder} {e : Error}
    (announced : Frame.announcedLength d.buffer = .error e) :
    ∃ e, d.nextEvent = (.error e, d) := by
  rcases front : d.buffer with - | ⟨first, - | ⟨second, tail⟩⟩
  · simp [front, Frame.announcedLength] at announced
  · simp [front, Frame.announcedLength] at announced
  by_cases masked : (Frame.isMasked second && !d.acceptMasked) = true
  · exact ⟨_, nextEvent_of_error (nextFrame_masked front masked)⟩
  · refine ⟨e, nextEvent_of_error ?_⟩
    simp [nextFrame_unmasked front masked, checkAnnounced, announced]

end Decoder

/-! ### Messages -/

/-- What has arrived of a message is within the limits. -/
structure Assembly.Bounded (a : Assembly) : Prop where
  size : a.gathered.length ≤ a.limits.maxMessageSize
  count : a.fragments ≤ a.limits.maxFragments

namespace Assembly

theorem bounded_reset (a : Assembly) : a.reset.Bounded := ⟨Nat.zero_le _, Nat.zero_le _⟩

theorem Bounded.push {a : Assembly} (bounded : a.Bounded) (frame : Frame) :
    (a.push frame).2.Bounded := by
  have pushes := a.pushes frame
  generalize a.push frame = pushed at pushes ⊢
  cases pushes with
  | stray violation stranger => exact bounded
  | limited kind e belongs ofLimit => exact ⟨bounded.size, bounded.count⟩
  | gathered kind belongs few fits => exact ⟨fits, few⟩
  | completed kind belongs few fits => exact bounded_reset a

theorem size_of_push {a : Assembly} {frame : Frame} {message : Message}
    (completed : (a.push frame).1 = .ok (some message)) :
    message.payload.length ≤ a.limits.maxMessageSize := by
  have pushes := a.pushes frame
  generalize a.push frame = pushed at pushes completed
  cases pushes with
  | stray violation stranger => cases completed
  | limited kind e belongs ofLimit => cases completed
  | gathered kind belongs few fits => cases completed
  | completed kind belongs few fits =>
    cases whole : complete kind (a.gathered ++ frame.payload) with
    | error e => simp [whole, Except.map] at completed
    | ok found =>
      obtain rfl : found = message := by simpa [whole, Except.map] using completed
      rw [(complete_eq_ok_iff.mp whole).2]
      exact fits

end Assembly

namespace Decoder

theorem Bounded.accept {d : Decoder} (bounded : d.assembly.Bounded) (frame : Frame) :
    (d.accept frame).2.assembly.Bounded := by
  unfold Decoder.accept
  split
  · exact bounded
  · split
    · exact bounded
    · exact bounded
    · exact bounded
    all_goals exact bounded.push frame

theorem size_of_accept {d : Decoder} {frame : Frame} {message : Message}
    (completed : (d.accept frame).1 = .ok (some (.message message))) :
    message.payload.length ≤ d.assembly.limits.maxMessageSize := by
  unfold accept at completed
  split at completed
  · cases completed
  · split at completed
    · cases completed
    · cases completed
    · cases read : CloseBody.parse frame.payload <;> simp [read, Except.map] at completed
    all_goals
      simp only at completed
      cases pushed : (d.assembly.push frame).1 with
      | error e => simp [pushed, Except.map] at completed
      | ok found =>
        cases found with
        | none => simp [pushed, Except.map] at completed
        | some whole =>
          obtain rfl : whole = message := by simpa [pushed, Except.map] using completed
          exact Assembly.size_of_push pushed

theorem assembly_of_nextFrame {d rest : Decoder} {frame : Frame}
    (taken : d.nextFrame = .ok (some (frame, rest))) : rest.assembly = d.assembly := by
  unfold nextFrame at taken
  repeat' split at taken
  all_goals cases taken
  rfl

theorem Bounded.nextEvent {d : Decoder} (bounded : d.assembly.Bounded) :
    d.nextEvent.2.assembly.Bounded := by
  fun_induction Decoder.nextEvent d with
  | case1 d e refused => exact bounded
  | case2 d missing => exact bounded
  | case3 d frame rest taken _ quiet ih =>
    exact ih (Bounded.accept (assembly_of_nextFrame taken ▸ bounded) frame)
  | case4 d frame rest taken result loud =>
    exact Bounded.accept (assembly_of_nextFrame taken ▸ bounded) frame

theorem size_of_nextEvent {d : Decoder} {message : Message}
    (completed : d.nextEvent.1 = .ok (some (.message message))) :
    message.payload.length ≤ d.assembly.limits.maxMessageSize := by
  fun_induction Decoder.nextEvent d with
  | case1 d e refused => cases completed
  | case2 d missing => cases completed
  | case3 d frame rest taken _ quiet ih =>
    have same : (rest.accept frame).2.assembly.limits = d.assembly.limits :=
      congrArg (·.assembly.limits) ((reset_accept rest frame).trans (reset_nextFrame taken))
    exact same ▸ ih completed
  | case4 d frame rest taken result loud =>
    exact assembly_of_nextFrame taken ▸ size_of_accept completed

/-! ### Use -/

/-- What may be done with a decoder, and the events it has given so far. -/
inductive Use (config : Config) : Decoder → List Event → Prop
  | fresh : Use config (.ofConfig config) []
  | feed {d : Decoder} {events : List Event} (used : Use config d events) (data : Bytes) :
    Use config (d.feed data) events
  | frame {d rest : Decoder} {events : List Event} {frame : Frame} (used : Use config d events)
    (taken : d.nextFrame = .ok (some (frame, rest))) : Use config rest events
  | event {d rest : Decoder} {events : List Event} {event : Event} (used : Use config d events)
    (taken : d.nextEvent = (.ok (some event), rest)) : Use config rest (events ++ [event])
  | noEvent {d rest : Decoder} {events : List Event} {result : Except Error (Option Event)}
    (used : Use config d events) (tried : d.nextEvent = (result, rest))
    (nothing : ∀ event, result ≠ .ok (some event)) : Use config rest events
  | reset {d : Decoder} {events : List Event} (used : Use config d events) :
    Use config d.reset events

/-- The settings of a decoder in use are those it began with, what it holds of a message is within
the limits, and so is every message it gave. -/
structure Bounds (config : Config) (d : Decoder) (events : List Event) : Prop where
  settings : d.reset = .ofConfig config
  assembly : d.assembly.Bounded
  messages : ∀ message, .message message ∈ events →
    message.payload.length ≤ config.limits.maxMessageSize

variable {config : Config} {d : Decoder} {events : List Event}

theorem Bounds.limits (bounds : Bounds config d events) : d.assembly.limits = config.limits :=
  congrArg (·.assembly.limits) bounds.settings

theorem Bounds.acceptMasked (bounds : Bounds config d events) :
    d.acceptMasked = config.acceptMasked :=
  congrArg (·.acceptMasked) bounds.settings

theorem Use.bounds (used : Use config d events) : Bounds config d events := by
  induction used with
  | fresh => exact ⟨rfl, Assembly.bounded_reset { limits := config.limits }, by simp⟩
  | feed _ data ih => exact ⟨ih.settings, ih.assembly, ih.messages⟩
  | frame _ taken ih =>
    exact ⟨(reset_nextFrame taken).trans ih.settings, assembly_of_nextFrame taken ▸ ih.assembly,
      ih.messages⟩
  | @event d rest events event _ taken ih =>
    obtain rfl : d.nextEvent.2 = rest := congrArg Prod.snd taken
    refine ⟨(reset_nextEvent d).trans ih.settings, Bounded.nextEvent ih.assembly, ?_⟩
    intro message given
    rcases List.mem_append.mp given with earlier | last
    · exact ih.messages message earlier
    · obtain rfl : .message message = event := by simpa using last
      exact ih.limits ▸ size_of_nextEvent (congrArg Prod.fst taken)
  | @noEvent d rest events result _ tried _ ih =>
    obtain rfl : d.nextEvent.2 = rest := congrArg Prod.snd tried
    exact ⟨(reset_nextEvent d).trans ih.settings, Bounded.nextEvent ih.assembly, ih.messages⟩
  | reset _ ih => exact ⟨ih.settings, Assembly.bounded_reset _, ih.messages⟩

theorem Use.drain (used : Use config d events) :
    Use config d.drain.decoder (events ++ d.drain.events) := by
  induction d using drain_induction generalizing events with
  | error d e rest taken =>
    rw [drain_of_error taken, List.append_nil]
    exact used.noEvent taken (by simp)
  | none d rest taken =>
    rw [drain_of_none taken, List.append_nil]
    exact used.noEvent taken (by simp)
  | some d event rest taken ih =>
    rw [drain_of_some taken]
    simpa only [Drained.after, List.append_assoc] using ih (used.event taken)

theorem Use.drainEach (used : Use config d events) (deliveries : List Bytes) :
    Use config (d.drainEach deliveries).decoder (events ++ (d.drainEach deliveries).events) := by
  induction deliveries generalizing d events with
  | nil => simpa only [Decoder.drainEach, List.append_nil] using used
  | cons delivery later ih =>
    have drained := (used.feed delivery).drain
    cases first : (d.feed delivery).drain.fault with
    | some e =>
      rw [drainEach_of_fault first]
      exact drained
    | none =>
      rw [drainEach_of_sound first]
      simpa only [Drained.after, List.append_assoc] using ih drained

/-- A drained decoder holds fewer bytes than a frame of the largest size takes, and a frame that
announces more is refused where it stands, whether or not any of its payload is there. -/
theorem memory_of_use (used : Use config d events) :
    (∀ rest, d.nextEvent = (.ok none, rest) →
      rest.buffered < config.limits.maxFrameSize + overhead config.acceptMasked) ∧
    d.assembly.gathered.length ≤ config.limits.maxMessageSize ∧
    d.assembly.fragments ≤ config.limits.maxFragments ∧
    (∀ message, .message message ∈ events →
      message.payload.length ≤ config.limits.maxMessageSize) ∧
    (∀ length size, Frame.announcedLength d.buffer = .ok (some (length, size)) →
      config.limits.maxFrameSize < length →
      d.nextEvent = (.error (.frameTooLarge length config.limits.maxFrameSize), d) ∨
        config.acceptMasked = false ∧ d.nextEvent = (.error .maskedServerFrame, d)) ∧
    ∀ e, Frame.announcedLength d.buffer = .error e → ∃ e, d.nextEvent = (.error e, d) := by
  have bounds := used.bounds
  refine ⟨fun rest drained => ?_, ?_, ?_, bounds.messages, ?_, fun e => nextEvent_of_overflow⟩
  · have after : Bounds config rest events := (used.noEvent drained (by simp)).bounds
    rw [← after.limits, ← after.acceptMasked]
    exact buffered_of_nextFrame_none (nextFrame_of_nextEvent_none drained)
  · exact bounds.limits ▸ bounds.assembly.size
  · exact bounds.limits ▸ bounds.assembly.count
  · intro length size announced large
    rw [← bounds.limits, ← bounds.acceptMasked]
    exact nextEvent_of_oversized announced (bounds.limits ▸ large)

/-- A message, the first fragment of another and a header that is not all there. The byte that
completes its length is enough to refuse it. -/
theorem memory_of_use_broken_header :
    let config : Config := { limits := ⟨4, 6, 2⟩ }
    let deliveries : List Bytes :=
      [[0x82, 0x01, 0x07, 0x01], [0x02, 0x68, 0x69, 0x80, 0x7E], [0x01]]
    let drained := (ofConfig config).drainEach deliveries
    let longer := drained.decoder.feed [0x00]
    (Use config drained.decoder drained.events ∧ drained.events = [.message (.binary [0x07])] ∧
      drained.decoder.assembly.gathered.length ≤ 6 ∧ drained.decoder.buffered < 14) ∧
    Use config longer drained.events ∧
      longer.nextEvent = (.error (.frameTooLarge 256 4), longer) := by
  intro config deliveries drained longer
  have used : Use config drained.decoder drained.events := Use.fresh.drainEach deliveries
  have idle : drained.decoder.nextEvent = (.ok none, drained.decoder) := by decide +kernel
  refine ⟨⟨used, by decide +kernel, (memory_of_use used).2.1, (memory_of_use used).1 _ idle⟩,
    used.feed [0x00], ?_⟩
  have refused := (memory_of_use (used.feed [0x00])).2.2.2.2.1 256 4 (by decide +kernel) (by decide)
  exact refused.resolve_right (by decide +kernel)

end Decoder

end WebSocket
