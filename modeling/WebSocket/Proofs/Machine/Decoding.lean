import WebSocket.Proofs.Decoder.Causes
import WebSocket.Proofs.Decoder.Jobs
import WebSocket.Proofs.Machine.Reading

/-!
# A decoder that meets no trap

On a machine a decoder gives what it gives otherwise, as long as the bytes it is fed are fewer than
half of all that a word counts (`performAll_eq`). Every pass through a loop takes a frame, which is
two bytes at least, so half as many passes as bytes, and one more, are enough.
-/

namespace WebSocket.Machine

/-! ### Frames -/

theorem checkAnnounced_eq (limits : Limits) (bytes : Bytes) :
    checkAnnounced limits bytes = settle (Decoder.checkAnnounced limits bytes) := by
  unfold checkAnnounced Decoder.checkAnnounced
  rw [announcedLength_eq]
  rcases Frame.announcedLength bytes with e | - | found
  all_goals rfl

theorem nextFrame_eq {d : Decoder} (short : d.buffer.length < 2 ^ 63) :
    nextFrame d = settle d.nextFrame := by
  rcases front : d.buffer with - | ⟨first, - | ⟨second, rest⟩⟩
  · simp [nextFrame, Decoder.nextFrame, front]
  · simp [nextFrame, Decoder.nextFrame, front]
  have two : ¬d.buffer.length < 2 := by simp [front]
  have there : byteAt d.buffer 1 = .ok second := by rw [front]; rfl
  unfold nextFrame
  simp only [two, if_false, there, liftM_ok, pure_bind]
  by_cases masked : (Frame.isMasked second && !d.acceptMasked) = true
  · rw [Decoder.nextFrame_masked front masked, if_pos masked]
    rfl
  rw [Decoder.nextFrame_unmasked front masked, if_neg masked, checkAnnounced_eq, frame_eq short]
  cases Decoder.checkAnnounced d.assembly.limits d.buffer with
  | error e => rfl
  | ok passed =>
    simp only [settle_ok, outcome_settle, pure_bind]
    cases parsed : Frame.parse d.buffer with
    | error e => cases e <;> rfl
    | ok result =>
      obtain ⟨frame, used⟩ := result
      simp only [advance_of_le (Frame.bounds_of_parse parsed).2, liftM_ok, pure_bind, settle_ok]

/-! ### Events -/

theorem push_eq {a : Assembly} {frame : Frame} (few : a.fragments + 1 < 2 ^ 64)
    (fits : a.gathered.length + frame.payload.length < 2 ^ 64) :
    push a frame = .ok (a.push frame) := by
  unfold push Assembly.push
  cases Assembly.kindFor a.kind frame.opcode with
  | error violation => rfl
  | ok kind =>
    simp only [add_of_lt few, add_of_lt fits, ok_bind]
    cases a.limits.checkFragments (a.fragments + 1) with
    | error e => rfl
    | ok _ =>
      cases a.limits.checkMessageSize (a.gathered.length + frame.payload.length) with
      | error e => rfl
      | ok _ => cases frame.fin <;> rfl

theorem accept_eq {d : Decoder} {frame : Frame}
    (small : d.held + (2 + frame.payload.length) < 2 ^ 63) :
    accept d frame = .ok (d.accept frame) := by
  have pushed : push d.assembly frame = .ok (d.assembly.push frame) := by
    unfold Decoder.held Assembly.held at small
    exact push_eq (by omega) (by omega)
  unfold accept Decoder.accept
  cases frame.validate with
  | error e => rfl
  | ok valid =>
    rw [closeBody_eq, pushed]
    cases frame.opcode <;> rfl

theorem nextEvent_eq {passes : Nat} {d : Decoder} (small : d.held < 2 ^ 63)
    (enough : d.buffer.length < 2 * passes) : nextEvent passes d = .ok d.nextEvent := by
  induction passes generalizing d with
  | zero => omega
  | succ passes ih =>
    rw [nextEvent, nextFrame_eq (d.buffered_le_held.trans_lt small)]
    rcases taken : d.nextFrame with e | - | ⟨frame, rest⟩
    · rw [Decoder.nextEvent_of_error taken]
      rfl
    · rw [Decoder.nextEvent_of_none taken]
      rfl
    · have fewer := Decoder.length_of_nextFrame taken
      have less := Decoder.held_of_nextFrame taken
      have least := Decoder.held_accept_le rest frame
      have accepted : accept rest frame = .ok (rest.accept frame) := accept_eq (by omega)
      have shorter := Decoder.accept_buffer rest frame
      simp only [run_settle, ok_bind, accepted]
      by_cases quiet : (rest.accept frame).1 = .ok none
      · rw [Decoder.nextEvent_of_quiet taken quiet]
        rcases found : rest.accept frame with ⟨result, after⟩
        rw [found] at quiet shorter least
        cases quiet
        exact ih (least.trans_lt (by omega)) (by rw [shorter]; omega)
      · rw [Decoder.nextEvent_of_loud taken quiet]
        rcases found : rest.accept frame with ⟨e | - | event, after⟩
        · rfl
        · rw [found] at quiet
          exact absurd rfl quiet
        · rfl

theorem drain_eq {passes : Nat} {d : Decoder} (small : d.held < 2 ^ 63)
    (enough : d.buffer.length < 2 * passes) : drain passes d = .ok d.drain := by
  induction passes generalizing d with
  | zero => omega
  | succ passes ih =>
    rw [drain, nextEvent_eq small enough]
    have least := Decoder.held_nextEvent_le d
    rcases taken : d.nextEvent with ⟨e | - | event, rest⟩
    · rw [Decoder.drain_of_error taken]
      rfl
    · rw [Decoder.drain_of_none taken]
      rfl
    · have fewer := Decoder.length_of_event taken
      rw [taken] at least
      rw [Decoder.drain_of_some taken]
      simp only [ok_bind, ih (least.trans_lt small) (show rest.buffer.length < _ by omega)]
      rfl

/-! ### Jobs -/

def perform (passes : Nat) (d : Decoder) : Decoder.Job → Except Trap (Decoder.Reply × Decoder)
  | .feed data => .ok (.done, d.feed data)
  | .nextFrame => do
    match ← (nextFrame d).run with
    | .ok (some (frame, rest)) => return (.frame (.ok (some frame)), rest)
    | .ok none => return (.frame (.ok none), d)
    | .error e => return (.frame (.error e), d)
  | .nextEvent => do
    let (result, rest) ← nextEvent passes d
    return (.event result, rest)
  | .drain => do
    let drained ← drain passes d
    return (.events drained.events drained.fault, drained.decoder)
  | .reset => .ok (.done, d.reset)

def performAll (passes : Nat) (d : Decoder) :
    List Decoder.Job → Except Trap (List Decoder.Reply × Decoder)
  | [] => .ok ([], d)
  | job :: later => do
    let (reply, next) ← perform passes d job
    let (replies, rest) ← performAll passes next later
    return (reply :: replies, rest)

theorem perform_eq {passes : Nat} {d : Decoder} (job : Decoder.Job) (small : d.held < 2 ^ 63)
    (enough : d.buffer.length < 2 * passes) : perform passes d job = .ok (d.perform job) := by
  cases job with
  | feed data => rfl
  | nextFrame =>
    rw [perform, nextFrame_eq (d.buffered_le_held.trans_lt small), Decoder.perform, Decoder.pull]
    rcases d.nextFrame with e | - | found
    all_goals rfl
  | nextEvent =>
    rw [perform, nextEvent_eq small enough]
    rfl
  | drain =>
    rw [perform, drain_eq small enough]
    rfl
  | reset => rfl

theorem performAll_eq {passes : Nat} {d : Decoder} (jobs : List Decoder.Job)
    (small : d.held + (jobs.flatMap Decoder.Job.fed).length < 2 ^ 63)
    (enough : d.held + (jobs.flatMap Decoder.Job.fed).length < 2 * passes) :
    performAll passes d jobs = .ok (d.performAll jobs) := by
  induction jobs generalizing d with
  | nil => rfl
  | cons job later ih =>
    have least := Decoder.held_perform_le d job
    have buffered := d.buffered_le_held
    rw [List.flatMap_cons, List.length_append] at small enough
    rw [performAll, perform_eq job (by omega) (by omega)]
    simp only [ok_bind, ih (show (d.perform job).2.held + _ < 2 ^ 63 by omega) (by omega)]
    rfl

/-- A frame of two bytes takes two passes: one for the frame, one to find that it was the last. -/
example : performAll 1 (.ofConfig {}) [.feed [0x89, 0x00], .drain] = .error .unfinished := rfl

/-! ### Every byte string -/

/-- Bytes that number fewer than half of what a word counts are read without a trap, and so are they
when they are fed to a decoder, however they are cut and whatever is asked for in between. The
lengths that are read, and the sizes of frames, are words. An error has its cause in the bytes that
are refused. A frame that a decoder takes shortens what it holds by two bytes at least, so its loops
end, after half as many passes as there were bytes and one more. -/
theorem reading_meets_no_trap (bytes : Bytes) (short : bytes.length < 2 ^ 63) :
    (announcedLength bytes = settle (Frame.announcedLength bytes) ∧
      header bytes = settle (Frame.Header.parse bytes) ∧
      frame bytes = settle (Frame.parse bytes) ∧
      closeBody bytes = settle (CloseBody.parse bytes)) ∧
    (∀ length size, Frame.announcedLength bytes = .ok (some (length, size)) →
      word? length = some length) ∧
    (∀ header, Frame.Header.parse bytes = .ok header →
      word? (header.size + header.payloadLength) = some (header.size + header.payloadLength)) ∧
    (∀ e, Frame.announcedLength bytes = .error e ∨ Frame.Header.parse bytes = .error e ∨
      Frame.parse bytes = .error e ∨ CloseBody.parse bytes = .error e → Frame.Warranted bytes e) ∧
    (∀ config jobs passes, jobs.flatMap Decoder.Job.fed = bytes → bytes.length < 2 * passes →
      performAll passes (.ofConfig config) jobs = .ok ((Decoder.ofConfig config).performAll jobs)) ∧
    ∀ d : Decoder,
      (∀ e, d.nextFrame = .error e → Decoder.Conclusive d.buffer e) ∧
      (∀ e rest, d.nextEvent = (.error e, rest) → Decoder.Conclusive rest.buffer e) ∧
      (∀ frame rest, d.nextFrame = .ok (some (frame, rest)) →
        rest.buffer.length + 2 ≤ d.buffer.length) ∧
      ∀ event rest, d.nextEvent = (.ok (some event), rest) →
        rest.buffer.length + 2 ≤ d.buffer.length := by
  refine ⟨⟨announcedLength_eq bytes, header_eq short, frame_eq short, closeBody_eq bytes⟩,
    fun length size announced => ?_, fun header parsed => ?_, fun e refused => ?_,
    fun config jobs passes fed enough => ?_, fun d => ⟨fun e => Decoder.conclusive_of_nextFrame,
      fun e rest => Decoder.conclusive_of_nextEvent, fun frame rest => Decoder.length_of_nextFrame,
      fun event rest => Decoder.length_of_event⟩⟩
  · have small := Frame.lt_of_announcedLength announced
    exact word?_of_lt (by omega)
  · have small := Frame.Header.lt_of_parse parsed
    have most := (Frame.Header.bounds_of_parse parsed).2
    exact word?_of_lt (by omega)
  · rcases refused with length | header | whole | body
    · exact Frame.warranted_of_announcedLength length
    · exact Frame.warranted_of_header header
    · exact Frame.warranted_of_parse whole
    · have content := Decoder.isOfContent_of_closeBody body
      exact (Decoder.conclusive_of_content content bytes).toWarranted
  · have held : (Decoder.ofConfig config).held + (jobs.flatMap Decoder.Job.fed).length =
        bytes.length := by
      rw [fed]
      exact Nat.zero_add _
    exact performAll_eq jobs (by omega) (by omega)

/-- A masked fragment and a ping in two pieces, and then a length of more than 2^63, which is asked
for once more after it was refused. -/
theorem reading_meets_no_trap_overlong :
    let jobs : List Decoder.Job :=
      [.feed [0x01, 0x81, 1, 2], .nextEvent, .feed [3, 4, 0x69, 0x89, 0x00, 0x82, 0x7F, 0x80],
        .nextFrame, .drain, .feed [0, 0, 0, 0, 0, 0, 1], .drain, .nextFrame]
    let bytes := jobs.flatMap Decoder.Job.fed
    let fresh := Decoder.ofConfig { acceptMasked := true }
    let replies : List Decoder.Reply :=
      [.done, .event (.ok none), .done,
        .frame (.ok (some { fin := false, opcode := .text, payload := [0x68] })),
        .events [.ping []] none, .done, .events [] (some (.lengthOverflow (2 ^ 63 + 1))),
        .frame (.error (.lengthOverflow (2 ^ 63 + 1)))]
    bytes.length = 19 ∧ performAll 10 fresh jobs = .ok (fresh.performAll jobs) ∧
      (fresh.performAll jobs).1 = replies ∧
      Frame.TopBitSet (fresh.performAll jobs).2.buffer (2 ^ 63 + 1) := by
  intro jobs bytes fresh replies
  have length : bytes.length = 19 := rfl
  obtain ⟨-, -, -, -, run, decoders⟩ := reading_meets_no_trap bytes (by rw [length]; decide)
  have same := run { acceptMasked := true } jobs 10 rfl (by rw [length]; decide)
  have evaluated : performAll 10 fresh jobs = .ok (replies,
      { fresh with buffer := [0x82, 0x7F, 0x80, 0, 0, 0, 0, 0, 0, 1] }) := rfl
  have performed := Except.ok.inj (same.symm.trans evaluated)
  refine ⟨length, same, congrArg Prod.fst performed, ?_⟩
  have refused : (fresh.performAll jobs).2.nextFrame = .error (.lengthOverflow (2 ^ 63 + 1)) := by
    rw [performed]
    rfl
  exact ((decoders _).1 _ refused).length _ rfl

end WebSocket.Machine
