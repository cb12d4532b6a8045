import WebSocket.Proofs.Frame.Extent
import WebSocket.Proofs.Frame.Written

/-!
# Writing what was read

A frame that was read is written with the key it was covered with. This gives back the bytes it was
read from if these spelled the length in as few bytes as it fits in, and otherwise fewer bytes, by
those that were spared (`encode_of_parse`).
-/

namespace WebSocket.Frame

/-! ### The first two bytes -/

theorem opcode_and_flags (first : UInt8) :
    (first &&& 0x0F) ||| bit 0x80 (first &&& 0x80 != 0) ||| bit 0x40 (first &&& 0x40 != 0) |||
      bit 0x20 (first &&& 0x20 != 0) ||| bit 0x10 (first &&& 0x10 != 0) = first :=
  Bytes.forall_byte
    (P := fun first =>
      (first &&& 0x0F) ||| bit 0x80 (first &&& 0x80 != 0) ||| bit 0x40 (first &&& 0x40 != 0) |||
        bit 0x20 (first &&& 0x20 != 0) ||| bit 0x10 (first &&& 0x10 != 0) = first)
    (by decide +kernel) first

theorem mask_and_length (second : UInt8) :
    bit 0x80 (isMasked second) ||| (second &&& 0x7F) = second :=
  Bytes.forall_byte (P := fun second => bit 0x80 (isMasked second) ||| (second &&& 0x7F) = second)
    (by decide +kernel) second

section

variable {first : UInt8} {op : Opcode} (assigned : Opcode.ofByte? (first &&& 0x0F) = some op)
  (key : Option MaskKey) (length size : Nat) (covered : Bytes)

include assigned in
theorem firstByte_withFlags :
    ((Header.withFlags first op key length size).frame covered).firstByte = first := by
  have low : op.toByte = first &&& 0x0F := Opcode.toByte_of_ofByte? assigned
  simp only [firstByte, Header.frame, Header.withFlags, low]
  exact opcode_and_flags first

theorem length_withFlags :
    ((Header.withFlags first op key length size).frame covered).payload.length =
      covered.length := by
  cases key with
  | none => rfl
  | some key => exact MaskKey.length_apply key covered

theorem cover_withFlags :
    cover key ((Header.withFlags first op key length size).frame covered).payload = covered := by
  cases key with
  | none => rfl
  | some key =>
    change key.applyWords .littleEndian (key.apply covered) = covered
    rw [MaskKey.applyWords_eq_apply, MaskKey.apply_apply]

end

/-! ### The length -/

/-- A length of two bytes also fits in the two bytes that it is written in. -/
theorem spelledLength_lt {second : UInt8} (two : second &&& 0x7F = 126) (rest : Bytes) :
    spelledLength second rest < 65536 := by
  have mark : (second &&& 0x7F).toNat = 126 := congrArg UInt8.toNat two
  have size : lengthSize second = 2 := by simp [lengthSize, mark]
  rw [spelledLength_of_long (by omega), size]
  calc Bytes.toNat (rest.take 2) < 256 ^ (rest.take 2).length := Bytes.toNat_lt _
    _ ≤ 256 ^ 2 := Nat.pow_le_pow_right (by decide) (List.length_take_le 2 rest)
    _ = 65536 := rfl

theorem medium_of_lengthEnd {n : Nat} (ends : lengthEnd n = 4) : ¬n ≤ 125 ∧ n ≤ 65535 := by
  unfold lengthEnd at ends
  split_ifs at ends <;> omega

theorem long_of_lengthEnd {n : Nat} (ends : lengthEnd n = 10) : ¬n ≤ 65535 := by
  unfold lengthEnd at ends
  split_ifs at ends <;> omega

/-- The bytes that a length can take besides those that it is written in. -/
theorem exists_spare (second : UInt8) (rest : Bytes) :
    ∃ spare, (spare = 0 ∨ spare = 2 ∨ spare = 6 ∨ spare = 8) ∧
      2 + lengthSize second = lengthEnd (spelledLength second rest) + spare := by
  unfold lengthEnd
  rcases lengthSize_cases second with ⟨short, size⟩ | ⟨two, size⟩ | ⟨-, size⟩
  · rw [size, spelledLength_of_short short, if_pos short]
    exact ⟨0, by omega, rfl⟩
  · have most := spelledLength_lt two rest
    rw [size]
    split_ifs
    · exact ⟨2, by omega, rfl⟩
    · exact ⟨0, by omega, rfl⟩
    · omega
  · rw [size]
    split_ifs
    · exact ⟨8, by omega, rfl⟩
    · exact ⟨6, by omega, rfl⟩
    · exact ⟨0, by omega, rfl⟩

section

variable {second : UInt8} {rest : Bytes}

theorem length_keyOf (enough : lengthSize second + keySize second ≤ rest.length) :
    ((rest.drop (lengthSize second)).take (keySize second)).length = keySize second := by
  rw [List.length_take, List.length_drop]
  omega

/-- The key stands behind the length, byte by byte. -/
theorem toBytes_keyOf (enough : lengthSize second + keySize second ≤ rest.length) :
    (keyOf second rest).isSome = isMasked second ∧
      ((keyOf second rest).map MaskKey.toBytes).getD [] =
        (rest.drop (lengthSize second)).take (keySize second) := by
  have length := length_keyOf enough
  unfold keyOf
  cases masked : isMasked second with
  | false =>
    have none : keySize second = 0 := by simp [keySize, masked]
    simp only [none, List.take_zero]
    exact ⟨rfl, rfl⟩
  | true =>
    have four : keySize second = 4 := by simp [keySize, masked]
    rw [four] at length ⊢
    rcases found : (rest.drop (lengthSize second)).take 4 with
      - | ⟨a, - | ⟨b, - | ⟨c, - | ⟨d, - | ⟨e, more⟩⟩⟩⟩⟩
    case cons.cons.cons.cons.nil => exact ⟨rfl, rfl⟩
    all_goals
      rw [found] at length
      simp only [List.length_cons, List.length_nil] at length
      omega

theorem lengthAndKey_of_least (enough : lengthSize second + keySize second ≤ rest.length)
    (least : lengthEnd (spelledLength second rest) = 2 + lengthSize second) :
    lengthAndKey (spelledLength second rest) (keyOf second rest) =
      second :: rest.take (lengthSize second + keySize second) := by
  obtain ⟨present, key⟩ := toBytes_keyOf enough
  have whole := mask_and_length second
  have parts : rest.take (lengthSize second + keySize second) =
      rest.take (lengthSize second) ++ (rest.drop (lengthSize second)).take (keySize second) :=
    List.take_add
  have size : (rest.take (lengthSize second)).length = lengthSize second :=
    List.length_take_of_le (by omega)
  have written := Bytes.ofNat_toNat (rest.take (lengthSize second))
  rw [size] at written
  rw [parts, ← key]
  unfold lengthAndKey
  simp only [present]
  rcases lengthSize_cases second with ⟨short, none⟩ | ⟨two, twoBytes⟩ | ⟨eight, eightBytes⟩
  · rw [spelledLength_of_short short, if_pos short, UInt8.ofNat_toNat, whole, none]
    rfl
  · have mark : (second &&& 0x7F).toNat = 126 := congrArg UInt8.toNat two
    rw [← spelledLength_of_long (by omega), twoBytes] at written
    obtain ⟨long, medium⟩ := medium_of_lengthEnd (least.trans (congrArg (2 + ·) twoBytes))
    rw [two] at whole
    rw [if_neg long, if_pos medium, whole, written, twoBytes, List.cons_append]
  · have mark : (second &&& 0x7F).toNat = 127 := congrArg UInt8.toNat eight
    rw [← spelledLength_of_long (by omega), eightBytes] at written
    have long := long_of_lengthEnd (least.trans (congrArg (2 + ·) eightBytes))
    rw [eight] at whole
    rw [if_neg (by omega), if_neg long, whole, written, eightBytes, List.cons_append]

end

/-! ### The frame -/

section

variable {first second : UInt8} {rest : Bytes} {frame : Frame} {used : Nat}
  (parsed : parse (first :: second :: rest) = .ok (frame, used))

include parsed

theorem length_of_parse :
    frame.payload.length = spelledLength second rest ∧ spelledLength second rest < 2 ^ 63 ∧
      lengthSize second + keySize second + spelledLength second rest ≤ rest.length ∧
      used = 2 + (lengthSize second + keySize second) + spelledLength second rest := by
  obtain ⟨op, assigned⟩ := assigned_of_parse parsed nofun
  obtain ⟨small, whole, rfl, rfl⟩ := (parse_eq_ok_iff assigned second rest frame used).mp parsed
  refine ⟨?_, small, whole, rfl⟩
  rw [length_withFlags, List.length_take, List.length_drop]
  omega

theorem used_eq_of_parse :
    ∃ spare, (spare = 0 ∨ spare = 2 ∨ spare = 6 ∨ spare = 8) ∧
      2 + lengthSize second = lengthEnd frame.payload.length + spare ∧
      used = frame.wireSize (isMasked second) + spare := by
  obtain ⟨length, -, -, total⟩ := length_of_parse parsed
  obtain ⟨spare, sizes, ends⟩ := exists_spare second rest
  have key : keySize second = if isMasked second then 4 else 0 := rfl
  refine ⟨spare, sizes, length ▸ ends, ?_⟩
  rw [wireSize, encodedLength_eq, length, ← key]
  omega

theorem encode_of_least (least : lengthEnd frame.payload.length = 2 + lengthSize second) :
    frame.encode (keyOf second rest) = (first :: second :: rest).take used := by
  obtain ⟨op, assigned⟩ := assigned_of_parse parsed nofun
  obtain ⟨length, -, whole, total⟩ := length_of_parse parsed
  obtain ⟨-, -, rfl, -⟩ := (parse_eq_ok_iff assigned second rest frame used).mp parsed
  have header := lengthAndKey_of_least (by omega) (length ▸ least)
  have taken : used = 2 + (lengthSize second + keySize second + spelledLength second rest) := by
    omega
  have parts : rest.take (lengthSize second + keySize second + spelledLength second rest) =
      rest.take (lengthSize second + keySize second) ++
        (rest.drop (lengthSize second + keySize second)).take (spelledLength second rest) :=
    List.take_add
  -- On both sides stand the first two bytes, the rest of the header and the covered payload.
  rw [encode, firstByte_withFlags assigned, length, header, cover_withFlags, taken,
    Nat.add_comm 2, List.take_succ_cons, List.take_succ_cons, parts, List.cons_append,
    List.cons_append]

end

/-- A frame that was read is written in the fewest bytes that it is read from with a key, or without
one. It is written as it was read if its length had the shortest form, and otherwise without the
bytes that the length took too much. -/
theorem encode_of_parse {bytes : Bytes} {frame : Frame} {used : Nat}
    (parsed : parse bytes = .ok (frame, used)) :
    let second := bytes.getD 1 0
    let key := keyOf second (bytes.drop 2)
    let again := frame.encode key
    let shortest := lengthEnd frame.payload.length
    key.isSome = isMasked second ∧
    again.length = frame.wireSize (isMasked second) ∧ again.length ≤ used ∧
    (again = bytes.take used ↔ 2 + lengthSize second = shortest) ∧
    (again ≠ bytes.take used → ∃ spare, (spare = 2 ∨ spare = 6 ∨ spare = 8) ∧
      2 + lengthSize second = shortest + spare ∧ used = again.length + spare) ∧
    ∀ other used', parse other = .ok (frame, used') → isMasked (other.getD 1 0) = isMasked second →
      again.length ≤ used' := by
  rcases bytes with - | ⟨first, - | ⟨second, rest⟩⟩
  · cases parsed
  · cases parsed
  intro _ key again shortest
  obtain ⟨length, small, whole, total⟩ := length_of_parse parsed
  obtain ⟨spare, sizes, ends, use⟩ := used_eq_of_parse parsed
  have enough : lengthSize second + keySize second ≤ rest.length := by omega
  have present : key.isSome = isMasked second := (toBytes_keyOf enough).1
  have size : again.length = frame.wireSize (isMasked second) := by
    rw [← present]
    exact length_encode frame key (length ▸ small)
  have taken : ((first :: second :: rest).take used).length = used := by
    rw [List.length_take, List.length_cons, List.length_cons]
    omega
  have same : again = (first :: second :: rest).take used ↔ 2 + lengthSize second = shortest := by
    constructor
    · intro undone
      have lengths := congrArg List.length undone
      omega
    · intro least
      exact encode_of_least parsed least.symm
  refine ⟨present, size, by omega, same, fun differs => ?_, fun other used' read alike => ?_⟩
  · have more : 2 + lengthSize second ≠ shortest := fun least => differs (same.mpr least)
    exact ⟨spare, by omega, ends, by omega⟩
  · rcases other with - | ⟨first', - | ⟨second', rest'⟩⟩
    · cases read
    · cases read
    obtain ⟨spare', -, -, use'⟩ := used_eq_of_parse read
    change isMasked second' = isMasked second at alike
    rw [alike] at use'
    omega

/-- One covered byte, read behind a length of two bytes that takes none when it is written. -/
theorem encode_of_parse_overlong :
    let bytes : Bytes := [0x82, 0xFE, 0, 1, 1, 2, 3, 4, 0xA1]
    let frame : Frame := .binary [0xA0]
    let again := frame.encode (some ⟨1, 2, 3, 4⟩)
    parse bytes = .ok (frame, 9) ∧ again.length = frame.wireSize true ∧
      again = [0x82, 0x81, 1, 2, 3, 4, 0xA1] ∧
      ∃ spare, (spare = 2 ∨ spare = 6 ∨ spare = 8) ∧ 2 + 2 = lengthEnd 1 + spare ∧
        9 = again.length + spare := by
  intro bytes frame again
  have parsed : parse bytes = .ok (frame, 9) := by decide
  have key : keyOf (bytes.getD 1 0) (bytes.drop 2) = some ⟨1, 2, 3, 4⟩ := by decide
  have masked : isMasked (bytes.getD 1 0) = true := by decide
  have two : lengthSize (bytes.getD 1 0) = 2 := by decide
  obtain ⟨-, size, -, -, spares, -⟩ := encode_of_parse parsed
  rw [key, masked] at size
  rw [key, two] at spares
  exact ⟨parsed, size, by decide, spares (by decide)⟩

end WebSocket.Frame
