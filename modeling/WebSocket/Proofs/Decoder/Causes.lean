import WebSocket.Proofs.Decoder.Refusal

/-!
# Causes that bytes give

An error that names a cause is returned for bytes that have it (`Warranted`): a length is refused as
too large for any buffer only if it is spelled in 64 bits and the top one is set, and no opcode is
ever refused as one that four bits cannot hold. A decoder that needs more bytes does not fail for
it.
-/

namespace WebSocket

namespace Frame

/-- A length in 64 bits stands at the front, and its top bit is set. -/
def TopBitSet (bytes : Bytes) (length : Nat) : Prop :=
  ∃ first second field tail, bytes = first :: second :: (field ++ tail) ∧
    second &&& 0x7F = 127 ∧ field.length = 8 ∧ Bytes.toNat field = length ∧ 2 ^ 63 ≤ length

/-- What an error says of the bytes is so. -/
structure Warranted (bytes : Bytes) (e : Error) : Prop where
  opcode : ∀ byte, e ≠ .invalidOpcode byte
  length : ∀ length, e = .lengthOverflow length → TopBitSet bytes length

theorem topBitSet_of_spelledLength {second : UInt8} {rest : Bytes} (first : UInt8)
    (announced : ¬rest.length < lengthSize second) (large : ¬spelledLength second rest < 2 ^ 63) :
    TopBitSet (first :: second :: rest) (spelledLength second rest) := by
  rcases lengthSize_cases second with ⟨short, -⟩ | ⟨two, size⟩ | ⟨eight, size⟩
  · rw [spelledLength_of_short short] at large
    omega
  · have long : 126 ≤ (second &&& 0x7F).toNat := by rw [two]; decide
    have small := Bytes.toNat_lt (rest.take (lengthSize second))
    rw [size, List.length_take_of_le (by omega)] at small
    rw [spelledLength_of_long long, size] at large
    omega
  · have long : 126 ≤ (second &&& 0x7F).toNat := by rw [eight]; decide
    have enough : 8 ≤ rest.length := by omega
    rw [spelledLength_of_long long, size] at large ⊢
    refine ⟨first, second, rest.take 8, rest.drop 8, ?_, eight, List.length_take_of_le enough, rfl,
      Nat.le_of_not_lt large⟩
    rw [List.take_append_drop]

theorem warranted_incomplete (bytes : Bytes) (needed : Nat) :
    Warranted bytes (.incompleteFrame needed) := ⟨nofun, nofun⟩

theorem warranted_reserved (bytes : Bytes) (byte : UInt8) :
    Warranted bytes (.reservedOpcode byte) := ⟨nofun, nofun⟩

theorem warranted_overflow {bytes : Bytes} {length : Nat} (top : TopBitSet bytes length) :
    Warranted bytes (.lengthOverflow length) := by
  refine ⟨nofun, ?_⟩
  rintro _ ⟨rfl⟩
  exact top

theorem warranted_of_announcedLength {bytes : Bytes} {e : Error}
    (refused : announcedLength bytes = .error e) : Warranted bytes e := by
  rcases bytes with - | ⟨first, - | ⟨second, rest⟩⟩
  · cases refused
  · cases refused
  rw [announcedLength_eq] at refused
  split_ifs at refused with unannounced small
  cases refused
  exact warranted_overflow (topBitSet_of_spelledLength first unannounced small)

theorem warranted_of_header {bytes : Bytes} {e : Error} (refused : Header.parse bytes = .error e) :
    Warranted bytes e := by
  rcases bytes with - | ⟨first, - | ⟨second, rest⟩⟩
  · cases refused
    exact warranted_incomplete _ _
  · cases refused
    exact warranted_incomplete _ _
  cases assigned : Opcode.ofByte? (first &&& 0x0F) with
  | none =>
    simp only [Header.parse, decode_low, assigned] at refused
    cases refused
    exact warranted_reserved _ _
  | some op =>
    rw [Header.parse_eq assigned] at refused
    split_ifs at refused with unannounced small noKey
    · cases refused
      exact warranted_incomplete _ _
    · cases refused
      exact warranted_incomplete _ _
    · cases refused
      exact warranted_overflow (topBitSet_of_spelledLength first unannounced small)

theorem warranted_of_parse {bytes : Bytes} {e : Error} (refused : parse bytes = .error e) :
    Warranted bytes e := by
  rcases bytes with - | ⟨first, - | ⟨second, rest⟩⟩
  · cases refused
    exact warranted_incomplete _ _
  · cases refused
    exact warranted_incomplete _ _
  cases assigned : Opcode.ofByte? (first &&& 0x0F) with
  | none =>
    rw [parse_reserved assigned] at refused
    cases refused
    exact warranted_reserved _ _
  | some op =>
    rw [parse_eq assigned] at refused
    dsimp only at refused
    split_ifs at refused with unannounced small noKey noPayload
    · cases refused
      exact warranted_incomplete _ _
    · cases refused
      exact warranted_incomplete _ _
    · cases refused
      exact warranted_incomplete _ _
    · cases refused
      exact warranted_overflow (topBitSet_of_spelledLength first unannounced small)

end Frame

namespace Decoder

/-! ### What a decoder refuses -/

/-- The error is final: it does not wait for bytes to come. -/
structure Conclusive (bytes : Bytes) (e : Error) : Prop extends Frame.Warranted bytes e where
  settled : ∀ needed, e ≠ .incompleteFrame needed

theorem conclusive_of_content {e : Error} (content : isOfContent e) (bytes : Bytes) :
    Conclusive bytes e := by
  refine ⟨⟨?_, ?_⟩, ?_⟩
  all_goals
    rintro _ rfl
    cases content

theorem conclusive_of_checkAnnounced {limits : Limits} {bytes : Bytes} {e : Error}
    (refused : checkAnnounced limits bytes = .error e) : Conclusive bytes e := by
  rcases checkAnnounced_error refused with ⟨size, max, rfl⟩ | ⟨length, rfl⟩
  · exact ⟨⟨nofun, nofun⟩, nofun⟩
  refine ⟨Frame.warranted_of_announcedLength ?_, nofun⟩
  unfold checkAnnounced Limits.checkFrameSize at refused
  split at refused
  · cases refused
    assumption
  · cases refused
  · split at refused <;> cases refused

theorem conclusive_of_nextFrame {d : Decoder} {e : Error} (refused : d.nextFrame = .error e) :
    Conclusive d.buffer e := by
  obtain ⟨first, second, tail, front⟩ := front_of_nextFrame (d := d) (by simp [refused])
  by_cases masked : (Frame.isMasked second && !d.acceptMasked) = true
  · rw [nextFrame_masked front masked] at refused
    cases refused
    exact ⟨⟨nofun, nofun⟩, nofun⟩
  rw [nextFrame_unmasked front masked] at refused
  cases checked : checkAnnounced d.assembly.limits d.buffer with
  | error cause =>
    simp only [checked, Except.error.injEq] at refused
    exact refused ▸ conclusive_of_checkAnnounced checked
  | ok passed =>
    cases parsed : Frame.parse d.buffer with
    | ok result => simp [checked, parsed] at refused
    | error cause =>
      have warranted := Frame.warranted_of_parse parsed
      simp only [checked, parsed] at refused
      split at refused
      · cases refused
      · cases refused
      · rename_i settled same
        cases same
        cases refused
        exact ⟨warranted, settled⟩

theorem conclusive_of_nextEvent {d rest : Decoder} {e : Error}
    (refused : d.nextEvent = (.error e, rest)) : Conclusive rest.buffer e := by
  rcases nextEvent_error refused with content | front
  · exact conclusive_of_content content rest.buffer
  · exact conclusive_of_nextFrame front

end Decoder

end WebSocket
