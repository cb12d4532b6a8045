import WebSocket.Proofs.Frame.Fields

/-!
# The front of a byte string that grows

Frames are read from the front of bytes that arrive in pieces. This module says which answers stay
when more bytes follow: an announced length, a frame and every refusal. The one answer that does not
stay is that something is missing. An opcode that is set aside can be refused before the length is
all there (`parse_unannounced`).
-/

namespace WebSocket.Frame

theorem announcedLength_eq_none_iff (first second : UInt8) (rest : Bytes) :
    announcedLength (first :: second :: rest) = .ok none ↔ rest.length < lengthSize second := by
  rw [announcedLength_eq]
  by_cases short : rest.length < lengthSize second
  · simp only [short, if_true]
  · simp only [short, if_false, iff_false]
    split_ifs
    · exact nofun
    · exact nofun

theorem announcedLength_append (bytes more : Bytes) (known : announcedLength bytes ≠ .ok none) :
    announcedLength (bytes ++ more) = announcedLength bytes := by
  rcases bytes with - | ⟨first, - | ⟨second, rest⟩⟩
  · exact absurd rfl known
  · exact absurd rfl known
  rw [Ne, announcedLength_eq_none_iff, Nat.not_lt] at known
  have still : lengthSize second ≤ (rest ++ more).length := by
    rw [List.length_append]
    omega
  rw [List.cons_append, List.cons_append, announcedLength_eq, announcedLength_eq,
    spelledLength_append known, if_neg (Nat.not_lt.mpr known), if_neg (Nat.not_lt.mpr still)]

theorem parse_append (bytes more : Bytes)
    (settled : ∀ needed, parse bytes ≠ .error (.incompleteFrame needed)) :
    parse (bytes ++ more) = parse bytes := by
  rcases bytes with - | ⟨first, - | ⟨second, rest⟩⟩
  · exact absurd rfl (settled 2)
  · exact absurd rfl (settled 1)
  rw [List.cons_append, List.cons_append]
  cases assigned : Opcode.ofByte? (first &&& 0x0F) with
  | none => rw [parse_reserved assigned, parse_reserved assigned]
  | some op =>
    have length : (rest ++ more).length = rest.length + more.length := List.length_append
    rw [parse_eq assigned] at settled
    rw [parse_eq assigned, parse_eq assigned]
    dsimp only at settled ⊢
    by_cases unannounced : rest.length < lengthSize second
    · exact absurd (if_pos unannounced) (settled _)
    have announced : ¬(rest ++ more).length < lengthSize second := by omega
    rw [if_neg unannounced] at settled
    rw [spelledLength_append (Nat.not_lt.mp unannounced), if_neg unannounced, if_neg announced]
    by_cases small : spelledLength second rest < 2 ^ 63
    · generalize total : lengthSize second + keySize second = header at settled ⊢
      rw [if_pos small] at settled
      rw [if_pos small, if_pos small]
      by_cases noKey : rest.length < header
      · exact absurd (if_pos noKey) (settled _)
      have key : ¬(rest ++ more).length < header := by omega
      rw [if_neg noKey] at settled
      rw [if_neg noKey, if_neg key]
      by_cases noPayload : rest.length < header + spelledLength second rest
      · exact absurd (if_pos noPayload) (settled _)
      have payload : ¬(rest ++ more).length < header + spelledLength second rest := by omega
      rw [if_neg noPayload, if_neg payload, keyOf_append (by omega),
        Bytes.take_drop_append (Nat.not_lt.mp noPayload)]
    · rw [if_neg small, if_neg small]

/-- Without its length a frame is refused for its opcode or waited for. -/
theorem parse_unannounced {bytes : Bytes} (unannounced : announcedLength bytes = .ok none) :
    (∃ needed, parse bytes = .error (.incompleteFrame needed)) ∨
      ∃ byte, parse bytes = .error (.reservedOpcode byte) := by
  rcases bytes with - | ⟨first, - | ⟨second, rest⟩⟩
  · exact .inl ⟨2, rfl⟩
  · exact .inl ⟨1, rfl⟩
  rw [announcedLength_eq_none_iff] at unannounced
  cases assigned : Opcode.ofByte? (first &&& 0x0F) with
  | none => exact .inr ⟨_, parse_reserved assigned second rest⟩
  | some op =>
    rw [parse_eq assigned]
    exact .inl ⟨_, if_pos unannounced⟩

end WebSocket.Frame
