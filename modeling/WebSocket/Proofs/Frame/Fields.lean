import Mathlib.Tactic.SplitIfs
import WebSocket.Frame.Parse
import WebSocket.Proofs.Bytes

/-!
# The fields of a frame

The second byte of a frame says how many bytes its length and its key take, and the length how many
its payload does. Reading a frame goes through these fields one after another: it waits for the one
that stops short, refuses a length that is too large for any buffer, and takes the payload
(`parse_eq`).
-/

namespace WebSocket.Frame

/-! ### The fields of a frame -/

/-- The number of bytes that hold the length, if the second byte does not hold it itself. -/
def lengthSize (second : UInt8) : Nat :=
  if (second &&& 0x7F).toNat ≤ 125 then 0 else if (second &&& 0x7F).toNat = 126 then 2 else 8

/-- The length that the second byte, or the bytes behind it, spell. -/
def spelledLength (second : UInt8) (rest : Bytes) : Nat :=
  if (second &&& 0x7F).toNat ≤ 125 then (second &&& 0x7F).toNat
  else Bytes.toNat (rest.take (lengthSize second))

/-- The number of bytes that hold the masking key, if the second byte says that there is one. -/
def keySize (second : UInt8) : Nat := if isMasked second then 4 else 0

/-- The masking key, if there is one. -/
def keyOf (second : UInt8) (rest : Bytes) : Option MaskKey :=
  match (rest.drop (lengthSize second)).take (keySize second) with
  | [a, b, c, d] => some ⟨a, b, c, d⟩
  | _ => none

theorem lengthSize_cases (second : UInt8) :
    (second &&& 0x7F).toNat ≤ 125 ∧ lengthSize second = 0 ∨
      second &&& 0x7F = 126 ∧ lengthSize second = 2 ∨
      second &&& 0x7F = 127 ∧ lengthSize second = 8 :=
  Bytes.forall_byte
    (P := fun second =>
      (second &&& 0x7F).toNat ≤ 125 ∧ lengthSize second = 0 ∨
        second &&& 0x7F = 126 ∧ lengthSize second = 2 ∨
        second &&& 0x7F = 127 ∧ lengthSize second = 8)
    (by decide +kernel) second

theorem spelledLength_of_short {second : UInt8} (short : (second &&& 0x7F).toNat ≤ 125)
    (rest : Bytes) : spelledLength second rest = (second &&& 0x7F).toNat := if_pos short

theorem spelledLength_of_long {second : UInt8} (long : 126 ≤ (second &&& 0x7F).toNat)
    (rest : Bytes) : spelledLength second rest = Bytes.toNat (rest.take (lengthSize second)) :=
  if_neg (Nat.not_le_of_lt long)

theorem lengthSize_le (second : UInt8) : lengthSize second ≤ 8 := by
  rcases lengthSize_cases second with ⟨-, size⟩ | ⟨-, size⟩ | ⟨-, size⟩
  all_goals omega

theorem keySize_le (second : UInt8) : keySize second ≤ 4 := by
  unfold keySize
  split_ifs <;> omega

theorem spelledLength_append {second : UInt8} {rest : Bytes}
    (enough : lengthSize second ≤ rest.length) (more : Bytes) :
    spelledLength second (rest ++ more) = spelledLength second rest := by
  unfold spelledLength
  rw [List.take_append_of_le_length enough]

theorem keyOf_append {second : UInt8} {rest : Bytes}
    (enough : lengthSize second + keySize second ≤ rest.length) (more : Bytes) :
    keyOf second (rest ++ more) = keyOf second rest := by
  unfold keyOf
  rw [Bytes.take_drop_append enough]

/-! ### One field after another -/

theorem announcedLength_eq (first second : UInt8) (rest : Bytes) :
    announcedLength (first :: second :: rest) =
      if rest.length < lengthSize second then .ok none
      else if spelledLength second rest < 2 ^ 63 then
        .ok (some (spelledLength second rest, 2 + lengthSize second))
      else .error (.lengthOverflow (spelledLength second rest)) := by
  unfold announcedLength lengthSize spelledLength lengthSize
  by_cases short : (second &&& 0x7F).toNat ≤ 125
  · have small : (second &&& 0x7F).toNat < 2 ^ 63 := by omega
    simp only [short, small, if_true, Nat.not_lt_zero, if_false, Nat.add_zero]
  by_cases two : (second &&& 0x7F).toNat = 126
  · simp only [two, if_true]
    rcases rest with - | ⟨a, - | ⟨b, rest⟩⟩
    · rfl
    · rfl
    · have small : Bytes.toNat [a, b] < 2 ^ 63 :=
        Nat.lt_trans (Bytes.toNat_lt [a, b]) (by decide : 256 ^ 2 < 2 ^ 63)
      have enough : ¬(a :: b :: rest).length < 2 := by simp
      exact ((if_neg enough).trans (if_pos small)).symm
  · simp only [short, two, if_false]
    rcases rest with
      - | ⟨a, - | ⟨b, - | ⟨c, - | ⟨d, - | ⟨e, - | ⟨f, - | ⟨g, - | ⟨h, rest⟩⟩⟩⟩⟩⟩⟩⟩
    case cons.cons.cons.cons.cons.cons.cons.cons =>
      have enough : ¬(a :: b :: c :: d :: e :: f :: g :: h :: rest).length < 8 := by simp
      exact (if_neg enough).symm
    all_goals rfl

theorem decode_low (first : UInt8) :
    Opcode.decode (first &&& 0x0F) =
      match Opcode.ofByte? (first &&& 0x0F) with
      | some op => .ok op
      | none => .error (.reservedOpcode (first &&& 0x0F)) := by
  have low : first &&& 0x0F < 0x10 := by
    rw [UInt8.lt_iff_toNat_lt, UInt8.toNat_and]
    exact Nat.lt_of_le_of_lt Nat.and_le_right (by decide)
  unfold Opcode.decode
  cases Opcode.ofByte? (first &&& 0x0F) with
  | some op => rfl
  | none => exact congrArg Except.error (if_pos low)

theorem parse_reserved {first : UInt8} (reserved : Opcode.ofByte? (first &&& 0x0F) = none)
    (second : UInt8) (tail : Bytes) :
    parse (first :: second :: tail) = .error (.reservedOpcode (first &&& 0x0F)) := by
  simp only [parse, Header.parse, decode_low, reserved]

section

variable {first : UInt8} {op : Opcode} (assigned : Opcode.ofByte? (first &&& 0x0F) = some op)
  (second : UInt8) (rest : Bytes)

include assigned

theorem Header.parse_eq :
    parse (first :: second :: rest) =
      if rest.length < lengthSize second then
        .error (.incompleteFrame (lengthSize second - rest.length))
      else if spelledLength second rest < 2 ^ 63 then
        if rest.length < lengthSize second + keySize second then
          .error (.incompleteFrame (lengthSize second + keySize second - rest.length))
        else
          .ok (withFlags first op (keyOf second rest) (spelledLength second rest)
            (2 + (lengthSize second + keySize second)))
      else .error (.lengthOverflow (spelledLength second rest)) := by
  unfold parse
  simp only [decode_low, assigned, announcedLength_eq]
  by_cases unannounced : rest.length < lengthSize second
  · simp only [unannounced, if_true]
    rcases lengthSize_cases second with ⟨-, size⟩ | ⟨two, size⟩ | ⟨eight, size⟩
    · omega
    · rw [two, if_pos rfl, size]
      congr 2
      omega
    · rw [eight, if_neg (by decide), size]
      congr 2
      omega
  simp only [unannounced, if_false]
  by_cases small : spelledLength second rest < 2 ^ 63
  · simp only [small, if_true, Nat.add_sub_cancel_left]
    cases masked : isMasked second with
    | false =>
      simp only [keySize, keyOf, masked, unannounced, Nat.add_zero, if_false, Bool.false_eq_true]
      rfl
    | true =>
      simp only [keySize, keyOf, masked, if_true]
      have left : (rest.drop (lengthSize second)).length = rest.length - lengthSize second :=
        List.length_drop
      rcases key : rest.drop (lengthSize second) with - | ⟨a, - | ⟨b, - | ⟨c, - | ⟨d, tail⟩⟩⟩⟩
      case cons.cons.cons.cons =>
        rw [key] at left
        simp only [List.length_cons] at left
        rw [if_neg (by omega)]
        simp [Nat.add_assoc]
      all_goals
        rw [key] at left
        simp only [List.length_cons, List.length_nil] at left
        rw [if_pos (by omega)]
        simp only [List.length_cons, List.length_nil]
        congr 2
        omega
  · simp only [small, if_false]

theorem parse_eq :
    parse (first :: second :: rest) =
      let header := lengthSize second + keySize second
      let length := spelledLength second rest
      if rest.length < lengthSize second then
        .error (.incompleteFrame (lengthSize second - rest.length))
      else if length < 2 ^ 63 then
        if rest.length < header then .error (.incompleteFrame (header - rest.length))
        else if rest.length < header + length then
          .error (.incompleteFrame (header + length - rest.length))
        else
          .ok ((Header.withFlags first op (keyOf second rest) length (2 + header)).frame
            ((rest.drop header).take length), 2 + header + length)
      else .error (.lengthOverflow length) := by
  unfold parse
  simp only [Header.parse_eq assigned]
  by_cases unannounced : rest.length < lengthSize second
  · simp only [unannounced, if_true]
  by_cases small : spelledLength second rest < 2 ^ 63
  · by_cases noKey : rest.length < lengthSize second + keySize second
    · simp only [unannounced, small, noKey, if_true, if_false]
    · simp only [unannounced, small, noKey, if_true, if_false]
      generalize whole : Header.withFlags first op (keyOf second rest) (spelledLength second rest)
        (2 + (lengthSize second + keySize second)) = header
      have size : header.size = 2 + (lengthSize second + keySize second) := by rw [← whole]; rfl
      have length : header.payloadLength = spelledLength second rest := by rw [← whole]; rfl
      have fits :
          ¬1 <<< 64 ≤ 2 + (lengthSize second + keySize second) + spelledLength second rest := by
        have := lengthSize_le second
        have := keySize_le second
        simp only [Nat.reduceShiftLeft]
        omega
      have behind : (first :: second :: rest).drop (2 + (lengthSize second + keySize second)) =
          rest.drop (lengthSize second + keySize second) := by
        rw [Nat.add_comm 2]
        rfl
      rw [size, length, if_neg fits, behind, List.length_take, List.length_drop]
      by_cases noPayload :
          rest.length < lengthSize second + keySize second + spelledLength second rest
      · rw [if_pos (by omega), if_pos noPayload]
        congr 2
        omega
      · rw [if_neg (by omega), if_neg noPayload]
  · simp only [unannounced, small, if_false]

end

theorem assigned_of_parse {first second : UInt8} {rest : Bytes}
    {result : Except Error (Frame × Nat)} (parsed : parse (first :: second :: rest) = result)
    (unreserved : ∀ byte, result ≠ .error (.reservedOpcode byte)) :
    ∃ op, Opcode.ofByte? (first &&& 0x0F) = some op := by
  cases assigned : Opcode.ofByte? (first &&& 0x0F) with
  | none => exact absurd (parsed.symm.trans (parse_reserved assigned second rest)) (unreserved _)
  | some op => exact ⟨op, rfl⟩

end WebSocket.Frame
