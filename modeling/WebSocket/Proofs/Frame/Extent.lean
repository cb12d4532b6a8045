import WebSocket.Proofs.Frame.Growth

/-!
# Where a frame ends

A frame is read as soon as all its fields are there, and while they are not, the number of bytes
that is asked for is that of the field which stops short. So a reader that adds what is asked for
reads a frame to its last byte and no further (`parse_exactly`).
-/

namespace WebSocket.Frame

/-! ### Fields that are there -/

/-- A frame is read exactly if all its bytes are there. -/
theorem parse_eq_ok_iff {first : UInt8} {op : Opcode}
    (assigned : Opcode.ofByte? (first &&& 0x0F) = some op) (second : UInt8) (rest : Bytes)
    (frame : Frame) (used : Nat) :
    parse (first :: second :: rest) = .ok (frame, used) ↔
      let header := lengthSize second + keySize second
      let length := spelledLength second rest
      length < 2 ^ 63 ∧ header + length ≤ rest.length ∧
        (Header.withFlags first op (keyOf second rest) length (2 + header)).frame
          ((rest.drop header).take length) = frame ∧ 2 + header + length = used := by
  rw [parse_eq assigned]
  dsimp only
  by_cases unannounced : rest.length < lengthSize second
  · simp only [unannounced, if_true]
    exact ⟨nofun, by omega⟩
  by_cases small : spelledLength second rest < 2 ^ 63
  · by_cases noKey : rest.length < lengthSize second + keySize second
    · simp only [unannounced, small, noKey, if_true, if_false]
      exact ⟨nofun, by omega⟩
    by_cases noPayload :
        rest.length < lengthSize second + keySize second + spelledLength second rest
    · simp only [unannounced, small, noKey, noPayload, if_true, if_false]
      exact ⟨nofun, by omega⟩
    · simp only [unannounced, small, noKey, noPayload, Nat.not_lt.mp noPayload, if_true, if_false,
        true_and, Except.ok.injEq, Prod.mk.injEq]
  · simp only [unannounced, small, if_false, false_and]
    exact ⟨nofun, nofun⟩

/-! ### Fields that stop short -/

/-- The number of bytes behind the first two with which the field ends that stops short, or with
which the frame ends. -/
def awaited (second : UInt8) (rest : Bytes) : Nat :=
  if rest.length < lengthSize second then lengthSize second
  else if rest.length < lengthSize second + keySize second then lengthSize second + keySize second
  else lengthSize second + keySize second + spelledLength second rest

/-- The number of fields that stop short. -/
def fieldsLeft (second : UInt8) (rest : Bytes) : Nat :=
  if rest.length < lengthSize second then 3
  else if rest.length < lengthSize second + keySize second then 2
  else if rest.length < lengthSize second + keySize second + spelledLength second rest then 1
  else 0

theorem parse_eq_incomplete_iff {first : UInt8} {op : Opcode}
    (assigned : Opcode.ofByte? (first &&& 0x0F) = some op) (second : UInt8) (rest : Bytes)
    (needed : Nat) :
    parse (first :: second :: rest) = .error (.incompleteFrame needed) ↔
      0 < needed ∧ rest.length + needed = awaited second rest ∧
        (lengthSize second ≤ rest.length → spelledLength second rest < 2 ^ 63) := by
  rw [parse_eq assigned]
  unfold awaited
  by_cases unannounced : rest.length < lengthSize second
  · simp only [unannounced, if_true, Except.error.injEq, Error.incompleteFrame.injEq]
    omega
  by_cases small : spelledLength second rest < 2 ^ 63
  · by_cases noKey : rest.length < lengthSize second + keySize second
    · simp only [unannounced, small, noKey, if_true, if_false, implies_true, and_true,
        Except.error.injEq, Error.incompleteFrame.injEq]
      omega
    by_cases noPayload :
        rest.length < lengthSize second + keySize second + spelledLength second rest
    · simp only [unannounced, small, noKey, noPayload, if_true, if_false, implies_true, and_true,
        Except.error.injEq, Error.incompleteFrame.injEq]
      omega
    · simp only [unannounced, small, noKey, noPayload, if_true, if_false]
      exact ⟨nofun, by omega⟩
  · simp only [unannounced, small, if_false]
    exact ⟨nofun, fun ⟨_, _, never⟩ => (never (Nat.le_of_not_lt unannounced)).elim⟩

/-! ### Bytes that are asked for -/

variable {first second : UInt8} {rest : Bytes} {needed : Nat}

theorem awaited_append {more : Bytes} (short : (rest ++ more).length < awaited second rest) :
    awaited second (rest ++ more) = awaited second rest := by
  rw [List.length_append] at short
  unfold awaited at short ⊢
  rw [List.length_append]
  by_cases unannounced : rest.length < lengthSize second
  · simp only [unannounced, if_true] at short ⊢
    rw [if_pos short]
  rw [spelledLength_append (by omega)]
  by_cases noKey : rest.length < lengthSize second + keySize second
  · simp only [unannounced, noKey, if_true, if_false] at short ⊢
    rw [if_neg (by omega), if_pos short]
  · rw [if_neg unannounced, if_neg noKey, if_neg (by omega), if_neg (by omega)]

/-- Fewer bytes than were asked for leave as many to be asked for as there are still missing. -/
theorem parse_append_of_incomplete {bytes more : Bytes}
    (missing : parse bytes = .error (.incompleteFrame needed)) (few : more.length < needed) :
    parse (bytes ++ more) = .error (.incompleteFrame (needed - more.length)) := by
  rcases bytes with - | ⟨first, - | ⟨second, rest⟩⟩
  · cases missing
    rcases more with - | ⟨first, - | ⟨second, rest⟩⟩
    · rfl
    · rfl
    · simp only [List.length_cons] at few
      omega
  · cases missing
    obtain rfl : more = [] := List.length_eq_zero_iff.mp (by omega)
    rfl
  obtain ⟨op, assigned⟩ := assigned_of_parse missing nofun
  rw [parse_eq_incomplete_iff assigned] at missing
  obtain ⟨asked, ends, small⟩ := missing
  have length : (rest ++ more).length = rest.length + more.length := List.length_append
  have same : awaited second (rest ++ more) = awaited second rest := awaited_append (by omega)
  rw [List.cons_append, List.cons_append, parse_eq_incomplete_iff assigned, same, length]
  refine ⟨by omega, by omega, fun announced => ?_⟩
  have before : lengthSize second ≤ rest.length := by
    by_contra unannounced
    rw [awaited, if_pos (Nat.lt_of_not_le unannounced)] at ends
    omega
  rw [spelledLength_append before]
  exact small before

theorem pos_of_incomplete {bytes : Bytes}
    (missing : parse bytes = .error (.incompleteFrame needed)) : 0 < needed := by
  rcases bytes with - | ⟨first, - | ⟨second, rest⟩⟩
  · cases missing
    decide
  · cases missing
    decide
  obtain ⟨op, assigned⟩ := assigned_of_parse missing nofun
  exact ((parse_eq_incomplete_iff assigned second rest needed).mp missing).1

/-! ### Bytes that a frame takes -/

theorem awaited_le (second : UInt8) (rest : Bytes) :
    awaited second rest ≤ lengthSize second + keySize second + spelledLength second rest := by
  unfold awaited
  split_ifs <;> omega

variable {bytes : Bytes} {frame : Frame} {used : Nat}

/-- A frame needs no more bytes than it takes. -/
theorem parse_take (parsed : parse bytes = .ok (frame, used)) :
    parse (bytes.take used) = .ok (frame, used) := by
  have settled : ∀ needed, parse (bytes.take used) ≠ .error (.incompleteFrame needed) := by
    intro needed missing
    rcases bytes with - | ⟨first, - | ⟨second, rest⟩⟩
    · cases parsed
    · cases parsed
    obtain ⟨op, assigned⟩ := assigned_of_parse parsed nofun
    obtain ⟨-, whole, -, rfl⟩ := (parse_eq_ok_iff assigned second rest frame used).mp parsed
    generalize total : lengthSize second + keySize second + spelledLength second rest = n at whole
    rw [Nat.add_assoc, total, Nat.add_comm 2, List.take_succ_cons, List.take_succ_cons,
      parse_eq_incomplete_iff assigned] at missing
    obtain ⟨asked, ends, -⟩ := missing
    have most := awaited_le second (rest.take n)
    have taken : (rest.take n).length = n := List.length_take_of_le whole
    have enough : lengthSize second ≤ (rest.take n).length := by omega
    have same := spelledLength_append enough (rest.drop n)
    rw [List.take_append_drop] at same
    omega
  have same := parse_append _ (bytes.drop used) settled
  rw [List.take_append_drop] at same
  rw [← same, parsed]

/-- While a frame is not all there, no more bytes are asked for than it takes. -/
theorem incomplete_of_shorter (parsed : parse bytes = .ok (frame, used)) {m : Nat}
    (short : m < used) :
    ∃ needed, parse (bytes.take m) = .error (.incompleteFrame needed) ∧ m + needed ≤ used := by
  by_cases settled : ∀ needed, parse (bytes.take m) ≠ .error (.incompleteFrame needed)
  · have same := parse_append _ (bytes.drop m) settled
    rw [List.take_append_drop, parsed] at same
    have bounds := bounds_of_parse same.symm
    rw [List.length_take] at bounds
    omega
  · obtain ⟨needed, missing⟩ := not_forall_not.mp settled
    refine ⟨needed, missing, Nat.le_of_not_lt fun much => ?_⟩
    have rest : bytes.take m ++ (bytes.take used).drop m = bytes.take used := by
      have front : bytes.take m = (bytes.take used).take m := by
        rw [List.take_take, Nat.min_eq_left (by omega)]
      rw [front, List.take_append_drop]
    have few : ((bytes.take used).drop m).length < needed := by
      rw [List.length_drop, List.length_take]
      omega
    have still := parse_append_of_incomplete missing few
    rw [rest, parse_take parsed] at still
    cases still

/-! ### Reading what is asked for -/

/-- Adds the bytes that are asked for, at most so many times. The source says which byte stands
where. -/
def readOn (source : Nat → UInt8) : (reads : Nat) → (held : Bytes) → Bytes
  | 0, held => held
  | reads + 1, held =>
    match parse held with
    | .error (.incompleteFrame needed) =>
      readOn source reads (held ++ (List.range needed).map fun i => source (held.length + i))
    | _ => held

theorem readOn_of_incomplete {held : Bytes} (source : Nat → UInt8) (reads : Nat)
    (missing : parse held = .error (.incompleteFrame needed)) :
    ∃ data : Bytes, data.length = needed ∧
      readOn source (reads + 1) held = readOn source reads (held ++ data) := by
  refine ⟨(List.range needed).map fun i => source (held.length + i), ?_, ?_⟩
  · rw [List.length_map, List.length_range]
  · rw [readOn, missing]

theorem readOn_of_settled {source : Nat → UInt8} {reads : Nat} {held : Bytes}
    (settled : ∀ needed, parse held ≠ .error (.incompleteFrame needed)) :
    readOn source reads held = held := by
  cases reads with
  | zero => rfl
  | succ reads =>
    rw [readOn]
    split
    · exact absurd ‹_› (settled _)
    · rfl

/-- One read completes a field, and no byte of what comes after it. -/
theorem fieldsLeft_append {data : Bytes} (ends : rest.length + data.length = awaited second rest)
    (some : 0 < data.length) :
    fieldsLeft second (rest ++ data) < fieldsLeft second rest ∧
      (rest ++ data).length ≤
        lengthSize second + keySize second + spelledLength second (rest ++ data) := by
  have length : (rest ++ data).length = rest.length + data.length := List.length_append
  unfold awaited at ends
  unfold fieldsLeft
  by_cases unannounced : rest.length < lengthSize second
  · simp only [unannounced, if_true] at ends ⊢
    refine ⟨?_, by omega⟩
    rw [if_neg (by omega)]
    split_ifs <;> omega
  rw [spelledLength_append (by omega)]
  by_cases noKey : rest.length < lengthSize second + keySize second
  · simp only [unannounced, noKey, if_true, if_false] at ends ⊢
    refine ⟨?_, by omega⟩
    rw [if_neg (by omega), if_neg (by omega)]
    split_ifs <;> omega
  · simp only [unannounced, noKey, if_false] at ends ⊢
    refine ⟨?_, by omega⟩
    rw [if_neg (by omega), if_neg (by omega), if_neg (by omega), if_pos (by omega)]
    decide

theorem fieldsLeft_pos
    (missing : parse (first :: second :: rest) = .error (.incompleteFrame needed)) :
    0 < fieldsLeft second rest := by
  obtain ⟨op, assigned⟩ := assigned_of_parse missing nofun
  obtain ⟨asked, ends, -⟩ := (parse_eq_incomplete_iff assigned second rest needed).mp missing
  unfold awaited at ends
  unfold fieldsLeft
  split_ifs at ends ⊢ <;> omega

theorem length_of_within (parsed : parse (first :: second :: rest) = .ok (frame, used))
    (within : rest.length ≤ lengthSize second + keySize second + spelledLength second rest) :
    (first :: second :: rest).length = used := by
  obtain ⟨op, assigned⟩ := assigned_of_parse parsed nofun
  obtain ⟨-, whole, -, rfl⟩ := (parse_eq_ok_iff assigned second rest frame used).mp parsed
  simp only [List.length_cons]
  omega

/-- A reader that may read as often as fields stop short, and holds no byte beyond the frame, comes
to an end and still holds none. -/
theorem readOn_ends (source : Nat → UInt8) (reads : Nat) (first second : UInt8) (rest : Bytes)
    (enough : fieldsLeft second rest ≤ reads)
    (within : rest.length ≤ lengthSize second + keySize second + spelledLength second rest) :
    (∀ needed, parse (readOn source reads (first :: second :: rest)) ≠
      .error (.incompleteFrame needed)) ∧
    ∀ frame used, parse (readOn source reads (first :: second :: rest)) = .ok (frame, used) →
      (readOn source reads (first :: second :: rest)).length = used := by
  induction reads generalizing rest with
  | zero =>
    refine ⟨fun needed missing => ?_, fun frame used parsed => length_of_within parsed within⟩
    have some := fieldsLeft_pos missing
    omega
  | succ reads ih =>
    by_cases settled : ∀ needed, parse (first :: second :: rest) ≠ .error (.incompleteFrame needed)
    · rw [readOn_of_settled settled]
      exact ⟨settled, fun frame used parsed => length_of_within parsed within⟩
    · obtain ⟨needed, missing⟩ := not_forall_not.mp settled
      obtain ⟨op, assigned⟩ := assigned_of_parse missing nofun
      obtain ⟨asked, ends, -⟩ := (parse_eq_incomplete_iff assigned second rest needed).mp missing
      obtain ⟨data, rfl, next⟩ := readOn_of_incomplete source reads missing
      obtain ⟨fewer, stillWithin⟩ := fieldsLeft_append ends asked
      rw [next]
      exact ih (rest ++ data) (by omega) stillWithin

/-- What a frame is read as depends on its own bytes only, and while some of them are missing, the
number that is asked for is that of bytes that are missing for certain. So a reader that adds just
what is asked for has a frame or a refusal after four reads, and not a byte more than the frame. -/
theorem parse_exactly (bytes : Bytes) :
    (∀ frame used, parse bytes = .ok (frame, used) →
      2 ≤ used ∧ used ≤ bytes.length ∧
      (∀ more, parse (bytes.take used ++ more) = .ok (frame, used)) ∧
      ∀ m < used, ∃ needed, parse (bytes.take m) = .error (.incompleteFrame needed) ∧
        m + needed ≤ used) ∧
    (∀ needed, parse bytes = .error (.incompleteFrame needed) →
      1 ≤ needed ∧ ∀ more, more.length < needed →
        parse (bytes ++ more) = .error (.incompleteFrame (needed - more.length))) ∧
    ∀ source, let last := readOn source 4 []
      (∀ needed, parse last ≠ .error (.incompleteFrame needed)) ∧
      ∀ frame used, parse last = .ok (frame, used) → last.length = used := by
  refine ⟨fun frame used parsed => ?_, fun needed missing => ?_, fun source => ?_⟩
  · obtain ⟨least, most⟩ := bounds_of_parse parsed
    refine ⟨least, most, fun more => ?_, fun m short => incomplete_of_shorter parsed short⟩
    have front := parse_take parsed
    rw [parse_append _ more (by simp [front]), front]
  · exact ⟨pos_of_incomplete missing, fun more few => parse_append_of_incomplete missing few⟩
  · have opening : readOn source 4 [] = readOn source 3 [source 0, source 1] := rfl
    have most : fieldsLeft (source 1) [] ≤ 3 := by
      unfold fieldsLeft
      split_ifs <;> omega
    rw [opening]
    exact readOn_ends source 3 (source 0) (source 1) [] most (Nat.zero_le _)

/-- A masked frame with a length of its own, and the first bytes of the next one. -/
theorem parse_exactly_masked :
    let bytes : Bytes := [0x82, 0xFE, 0, 3, 1, 2, 3, 4, 0xA1, 0xA2, 0xA3, 0x89]
    let frame : Frame := .binary [0xA0, 0xA0, 0xA0]
    (parse bytes = .ok (frame, 11) ∧ parse (bytes.take 11 ++ [0xFF]) = .ok (frame, 11) ∧
      (∀ m < 11, ∃ needed, parse (bytes.take m) = .error (.incompleteFrame needed) ∧
        m + needed ≤ 11)) ∧
    parse (bytes.take 5) = .error (.incompleteFrame 3) ∧
      parse (bytes.take 5 ++ [2, 3]) = .error (.incompleteFrame 1) := by
  intro bytes frame
  have parsed : parse bytes = .ok (frame, 11) := by decide
  have missing : parse (bytes.take 5) = .error (.incompleteFrame 3) := by decide
  obtain ⟨-, -, more, shorter⟩ := (parse_exactly bytes).1 frame 11 parsed
  exact ⟨⟨parsed, more [0xFF], shorter⟩, missing,
    ((parse_exactly (bytes.take 5)).2.1 3 missing).2 [2, 3] (by decide)⟩

end WebSocket.Frame
