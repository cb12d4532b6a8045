import Mathlib.Tactic.IntervalCases
import WebSocket.Machine.Reading
import WebSocket.Proofs.Frame.Growth

/-!
# Reading by position

Whatever the bytes, as long as their number is a position that half of all words hold, reading them
on a machine meets no trap and gives what `Frame.parse` and `CloseBody.parse` give (`frame_eq`,
`closeBody_eq`).
-/

namespace WebSocket

theorem Frame.lt_of_announcedLength {bytes : Bytes} {length size : Nat}
    (announced : announcedLength bytes = .ok (some (length, size))) : length < 2 ^ 63 := by
  rcases bytes with - | ⟨first, - | ⟨second, rest⟩⟩
  · cases announced
  · cases announced
  rw [announcedLength_eq] at announced
  split_ifs at announced with short small
  · cases announced
  · cases announced
    exact small

theorem Frame.Header.lt_of_parse {bytes : Bytes} {header : Header}
    (parsed : Header.parse bytes = .ok header) : header.payloadLength < 2 ^ 63 := by
  unfold Header.parse at parsed
  split at parsed <;> try contradiction
  split at parsed <;> try contradiction
  rename_i announced
  have small := lt_of_announcedLength announced
  split at parsed
  · split at parsed
    · cases parsed
      exact small
    · contradiction
  · cases parsed
    exact small

namespace Machine

/-! ### Fields -/

theorem topBit_iff (length : Nat) : length >>> 63 ≠ 0 ↔ ¬length < 1 <<< 63 := by
  have limit : 1 <<< 63 = 2 ^ 63 := rfl
  rw [Nat.shiftRight_eq_div_pow, limit]
  omega

theorem announcedLength_eq (bytes : Bytes) :
    announcedLength bytes = settle (Frame.announcedLength bytes) := by
  rcases bytes with - | ⟨first, - | ⟨second, rest⟩⟩
  · rfl
  · rfl
  unfold announcedLength Frame.announcedLength
  simp only [List.getElem?_cons_succ, List.getElem?_cons_zero]
  by_cases short : (second &&& 0x7F).toNat ≤ 125
  · simp only [short, if_true, settle_ok]
  by_cases two : (second &&& 0x7F).toNat = 126
  · simp only [two, if_true]
    rcases rest with - | ⟨a, - | ⟨b, rest⟩⟩
    · rfl
    · rfl
    · rw [range?_of_le (by decide) (by simp)]
      rfl
  · simp only [short, two, if_false]
    rcases rest with
      - | ⟨a, - | ⟨b, - | ⟨c, - | ⟨d, - | ⟨e, - | ⟨f, - | ⟨g, - | ⟨h, rest⟩⟩⟩⟩⟩⟩⟩⟩
    case cons.cons.cons.cons.cons.cons.cons.cons =>
      rw [range?_of_le (by decide) (by simp)]
      simp only [List.drop_succ_cons, List.drop_zero, Nat.reduceSub, List.take_succ_cons,
        List.take_zero, byteAt_cons_zero, byteAt_cons_succ, liftM_ok, pure_bind, topBit_iff]
      by_cases small : Bytes.toNat [a, b, c, d, e, f, g, h] < 1 <<< 63
      · simp only [small, not_true_eq_false, if_true, if_false, settle_ok]
      · simp only [small, not_false_eq_true, if_true, if_false, settle_error, throw_bind]
    all_goals rfl

theorem keyAt_eq {bytes : Bytes} {position : Nat} {a b c d : UInt8} {tail : Bytes}
    (there : bytes.drop position = a :: b :: c :: d :: tail) (short : position + 3 < 2 ^ 64) :
    keyAt bytes position = pure ⟨a, b, c, d⟩ := by
  have first : byteAt bytes position = .ok a := by
    rw [← Nat.add_zero position, byteAt_add, there, byteAt_cons_zero]
  rw [keyAt, first, add_of_lt (by omega), add_of_lt (by omega), add_of_lt (by omega)]
  simp only [liftM_ok, pure_bind, byteAt_add, there, byteAt_cons_zero, byteAt_cons_succ]

/-- More bytes are asked for than there are. -/
theorem waits_for_length {second : UInt8} {held : Nat} (short : held < Frame.lengthSize second) :
    2 + held ≤ if second &&& 0x7F = 126 then 4 else 10 := by
  rcases Frame.lengthSize_cases second with ⟨-, size⟩ | ⟨two, size⟩ | ⟨eight, size⟩
  · omega
  · rw [two, if_pos rfl]
    omega
  · rw [eight, if_neg (by decide)]
    omega

theorem header_eq {bytes : Bytes} (short : bytes.length < 2 ^ 63) :
    header bytes = settle (Frame.Header.parse bytes) := by
  rcases bytes with - | ⟨first, - | ⟨second, rest⟩⟩
  · rfl
  · rfl
  have length : (first :: second :: rest).length = 2 + rest.length := by
    simp only [List.length_cons]
    omega
  unfold header Frame.Header.parse
  simp only [length, byteAt_cons_zero, byteAt_cons_succ, announcedLength_eq, liftM_ok, pure_bind]
  rw [if_neg (by omega)]
  cases Opcode.decode (first &&& 0x0F) with
  | error e => rfl
  | ok op =>
    cases announced : Frame.announcedLength (first :: second :: rest) with
    | error e => rfl
    | ok found =>
      rcases found with - | ⟨payloadLength, size⟩
      · have missing := (Frame.announcedLength_eq_none_iff first second rest).mp announced
        simp only [settle_ok, pure_bind, sub_of_le (waits_for_length missing), liftM_ok,
          settle_error]
      · have small := Frame.lt_of_announcedLength announced
        obtain ⟨least, most⟩ := Frame.bounds_of_announcedLength announced
        simp only [settle_ok, pure_bind, word?_of_lt (show payloadLength < 2 ^ 64 by omega)]
        cases masked : Frame.isMasked second with
        | false =>
          simp only [Bool.false_eq_true, if_false, settle_ok]
          rw [if_neg (by omega)]
        | true =>
          have behind : (first :: second :: rest).drop size = rest.drop (size - 2) := by
            obtain ⟨size, rfl⟩ := Nat.exists_eq_add_of_le' least
            rfl
          have left : (rest.drop (size - 2)).length = rest.length - (size - 2) := List.length_drop
          simp only [if_true, add_of_lt (show size + 4 < 2 ^ 64 by omega), liftM_ok, pure_bind]
          rcases key : rest.drop (size - 2) with - | ⟨a, - | ⟨b, - | ⟨c, - | ⟨d, tail⟩⟩⟩⟩
          case cons.cons.cons.cons =>
            rw [key, List.length_cons, List.length_cons, List.length_cons, List.length_cons] at left
            rw [if_neg (by omega), keyAt_eq (behind.trans key) (by omega)]
            simp only [map_pure, pure_bind, settle_ok]
          all_goals
            rw [key] at left
            simp only [List.length_cons, List.length_nil] at left
            rw [if_pos (by omega), sub_of_le (by omega)]
            simp only [liftM_ok, pure_bind, throw_bind, settle_error, List.length_cons,
              List.length_nil]
            congr 2
            omega

/-! ### Frames -/

theorem byteAt_toBytes (key : MaskKey) (position : Nat) :
    byteAt key.toBytes (position % 4) = .ok (key.byteAt position) := by
  have small : position % 4 < 4 := Nat.mod_lt _ (by decide)
  unfold MaskKey.byteAt
  interval_cases position % 4 <;> rfl

theorem uncover_some (key : MaskKey) (covered : Bytes) :
    uncover (some key) covered = .ok (key.apply covered) := by
  simp only [uncover, byteAt_toBytes, ok_bind, MaskKey.apply, List.mapIdx_eq_zipIdx_map]
  exact List.mapM_pure

/-- A frame with its payload uncovered before. -/
theorem frame_of_uncover (header : Frame.Header) (covered : Bytes) :
    ∃ payload, uncover header.mask covered = .ok payload ∧
      { header with mask := none }.frame payload = header.frame covered := by
  cases masked : header.mask with
  | some key =>
    refine ⟨key.apply covered, uncover_some key covered, ?_⟩
    simp only [Frame.Header.frame, masked]
  | none =>
    refine ⟨covered, rfl, ?_⟩
    simp only [Frame.Header.frame, masked]

theorem frame_eq {bytes : Bytes} (short : bytes.length < 2 ^ 63) :
    frame bytes = settle (Frame.parse bytes) := by
  unfold frame Frame.parse
  rw [header_eq short]
  cases parsed : Frame.Header.parse bytes with
  | error e => rfl
  | ok header =>
    have small := Frame.Header.lt_of_parse parsed
    obtain ⟨-, most⟩ := Frame.Header.bounds_of_parse parsed
    have held : ((bytes.drop header.size).take header.payloadLength).length =
        min header.payloadLength (bytes.length - header.size) := by
      rw [List.length_take, List.length_drop]
    have fits : ¬1 <<< 64 ≤ header.size + header.payloadLength := by
      have limit : 1 <<< 64 = 2 ^ 64 := rfl
      omega
    simp only [settle_ok, pure_bind, fits, if_false,
      word?_of_lt (show header.size + header.payloadLength < 2 ^ 64 by omega)]
    by_cases whole : header.size + header.payloadLength ≤ bytes.length
    · obtain ⟨payload, uncovered, same⟩ :=
        frame_of_uncover header ((bytes.drop header.size).take header.payloadLength)
      rw [if_neg (by omega), if_neg (by omega), range_of_le (by omega) whole,
        Nat.add_sub_cancel_left]
      simp only [liftM_ok, pure_bind, uncovered, same, settle_ok]
    · rw [if_pos (by omega), if_pos (by omega), sub_of_le (by omega)]
      simp only [liftM_ok, pure_bind, throw_bind, settle_error]
      congr 2
      omega

theorem closeBody_eq (payload : Bytes) : closeBody payload = settle (CloseBody.parse payload) := by
  rcases payload with - | ⟨high, - | ⟨low, reason⟩⟩
  · rfl
  · rfl
  have all : range (high :: low :: reason) 2 (reason.length + 2) = .ok reason := by
    rw [range_of_le (by omega) (by simp), Nat.add_sub_cancel]
    exact congrArg Except.ok List.take_length
  unfold closeBody CloseBody.parse
  simp only [List.length_cons, Nat.add_assoc, Nat.reduceAdd, byteAt_cons_zero, byteAt_cons_succ,
    all, liftM_ok, pure_bind, throw_bind]
  by_cases allowed : (CloseCode.ofStatus (Bytes.toUInt16 high low)).isAllowed
  · simp only [allowed, Bool.not_true, Bool.false_eq_true, if_false]
    cases Bytes.toString? reason with
    | some text => rfl
    | none => rfl
  · simp only [allowed, Bool.not_false, if_true, settle_error]

end Machine

end WebSocket
