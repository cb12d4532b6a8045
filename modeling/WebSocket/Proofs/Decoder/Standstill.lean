import WebSocket.Proofs.Decoder.Refusal

/-!
# A decoder that has refused a frame

A refused header stays at the front, and the bytes that are fed after it come to stand behind it. So
short of a reset every later request for a frame is refused as well, and what is fed piles up
(`standstill_of_refused`). The cause can change once: an opcode that is set aside is refused before
the length is there, and the length, once it is there, before the opcode.
-/

namespace WebSocket.Decoder

/-! ### Requests -/

/-- What may be done with a decoder short of taking events and of a reset. -/
inductive Operation where
  | feed (data : Bytes)
  | nextFrame
  deriving DecidableEq, Repr

/-- The bytes that are fed. -/
def Operation.fed : Operation → Bytes
  | feed data => data
  | nextFrame => []

/-- The answer to a request for a frame, and the decoder that it leaves. -/
def pull (d : Decoder) : Except Error (Option Frame) × Decoder :=
  match d.nextFrame with
  | .ok (some (frame, rest)) => (.ok (some frame), rest)
  | .ok none => (.ok none, d)
  | .error e => (.error e, d)

/-- The answers to the requests among the operations, and the decoder that is left. -/
def run (d : Decoder) : List Operation → List (Except Error (Option Frame)) × Decoder
  | [] => ([], d)
  | .feed data :: later => (d.feed data).run later
  | .nextFrame :: later =>
    let rest := d.pull.2.run later
    (d.pull.1 :: rest.1, rest.2)

theorem pull_of_refused {d : Decoder} {e : Error} (refused : d.nextFrame = .error e) :
    d.pull = (.error e, d) := by
  simp only [pull, refused]

/-! ### Refusals -/

/-- The frame was refused for its opcode. -/
def Reserved (e : Error) : Prop := ∃ byte, e = .reservedOpcode byte

/-- The frame was refused for its length. -/
def OfLength (e : Error) : Prop := Oversized e ∨ ∃ length, e = .lengthOverflow length

theorem OfLength.not_reserved {e : Error} (ofLength : OfLength e) : ¬Reserved e := by
  rintro ⟨byte, rfl⟩
  rcases ofLength with ⟨size, max, other⟩ | ⟨length, other⟩
  · cases other
  · cases other

theorem refused_of_feed {d : Decoder} {e : Error} (refused : d.nextFrame = .error e)
    (data : Bytes) :
    ∃ later, (d.feed data).nextFrame = .error later ∧
      (later = e ∨ Reserved e ∧ OfLength later) := by
  rcases nextFrame_feed_error refused data with same | ⟨later, overtaken, grown⟩
  · exact ⟨e, same, .inl rfl⟩
  · exact ⟨later, grown, .inr ⟨overtaken.opcode, checkAnnounced_error overtaken.length⟩⟩

/-- The bytes that are fed pile up. -/
theorem left_of_run {d : Decoder} {e : Error} (refused : d.nextFrame = .error e)
    (ops : List Operation) : (d.run ops).2 = d.feed (ops.flatMap Operation.fed) := by
  induction ops generalizing d e with
  | nil => rw [List.flatMap_nil, feed_nil]; rfl
  | cons op later ih =>
    rw [List.flatMap_cons]
    cases op with
    | feed data =>
      obtain ⟨next, grown, -⟩ := refused_of_feed refused data
      have rest : ((d.feed data).run later).2 = (d.feed data).feed (later.flatMap Operation.fed) :=
        ih grown
      exact rest.trans (feed_feed d data _)
    | nextFrame =>
      have same : d.pull.2 = d := congrArg Prod.snd (pull_of_refused refused)
      change (d.pull.2.run later).2 = d.feed (later.flatMap Operation.fed)
      rw [same, ih refused]

/-- The same refusal again and again, and from some moment on perhaps another one. -/
theorem answers_of_run {d : Decoder} {e : Error} (refused : d.nextFrame = .error e)
    (ops : List Operation) :
    ∃ later m n,
      (d.run ops).1 = List.replicate m (.error e) ++ List.replicate n (.error later) ∧
        (0 < n → Reserved e ∧ OfLength later) := by
  induction ops generalizing d e with
  | nil => exact ⟨e, 0, 0, rfl, by omega⟩
  | cons op later ih =>
    cases op with
    | feed data =>
      obtain ⟨next, grown, cause⟩ := refused_of_feed refused data
      obtain ⟨last, m, n, answers, change⟩ := ih grown
      rcases cause with rfl | ⟨reserved, ofLength⟩
      · exact ⟨last, m, n, answers, change⟩
      · -- A length that was refused is refused for good.
        obtain rfl : n = 0 :=
          Nat.eq_zero_of_not_pos fun some => ofLength.not_reserved (change some).1
        rw [List.replicate_zero, List.append_nil] at answers
        exact ⟨next, 0, m, answers, fun _ => ⟨reserved, ofLength⟩⟩
    | nextFrame =>
      obtain ⟨last, m, n, answers, change⟩ := ih refused
      have first := pull_of_refused refused
      refine ⟨last, m + 1, n, ?_, change⟩
      rw [List.replicate_succ, List.cons_append, ← answers, run, first]

/-- A request that is refused leaves the decoder as it was, and whatever is fed and asked for after
it, the decoder holds all of what was fed and never gives a frame again. -/
theorem standstill_of_refused {d : Decoder} {e : Error} (refused : d.nextFrame = .error e) :
    d.pull = (.error e, d) ∧
    ∀ ops, let fed := ops.flatMap Operation.fed
      (d.run ops).2 = d.feed fed ∧ (d.run ops).2.buffered = d.buffered + fed.length ∧
      (∀ answer ∈ (d.run ops).1, ∃ cause, answer = .error cause) ∧
      ∃ later m n,
        (d.run ops).1 = List.replicate m (.error e) ++ List.replicate n (.error later) ∧
          (0 < n → Reserved e ∧ OfLength later) := by
  refine ⟨pull_of_refused refused, fun ops => ?_⟩
  have left := left_of_run refused ops
  have answers := answers_of_run refused ops
  refine ⟨left, ?_, ?_, answers⟩
  · rw [left, buffered, feed_buffer, List.length_append]
    rfl
  · obtain ⟨later, m, n, given, -⟩ := answers
    intro answer among
    rw [given] at among
    rcases List.mem_append.mp among with first | last
    · exact ⟨e, List.eq_of_mem_replicate first⟩
    · exact ⟨later, List.eq_of_mem_replicate last⟩

/-- An opcode that is set aside and a length that comes in two pieces and is too large. The frame
that comes behind it is not read. -/
theorem standstill_of_refused_twice :
    let d : Decoder := { acceptMasked := false, assembly := { limits := ⟨4, 6, 2⟩ }
                         buffer := [0x83, 0x7E] }
    let ops : List Operation :=
      [.nextFrame, .feed [0x01], .nextFrame, .feed [0x00, 0x81, 0x00], .nextFrame]
    d.nextFrame = .error (.reservedOpcode 0x03) ∧ d.pull = (.error (.reservedOpcode 0x03), d) ∧
      (d.run ops).1 = [.error (.reservedOpcode 0x03), .error (.reservedOpcode 0x03),
        .error (.frameTooLarge 256 4)] ∧
      (d.run ops).2 = d.feed [0x01, 0x00, 0x81, 0x00] ∧ (d.run ops).2.buffered = 2 + 4 := by
  intro d ops
  have refused : d.nextFrame = .error (.reservedOpcode 0x03) := rfl
  obtain ⟨same, later⟩ := standstill_of_refused refused
  exact ⟨refused, same, rfl, (later ops).1, (later ops).2.1⟩

end WebSocket.Decoder
