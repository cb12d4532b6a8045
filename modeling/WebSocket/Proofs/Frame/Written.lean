import WebSocket.Frame.Parse
import WebSocket.Gate
import WebSocket.Proofs.Bytes
import WebSocket.Proofs.Mask

/-!
# Reading what was written

A frame that was written is read back, whatever follows it, if its payload is shorter than the
largest length there is (`parse_encode_append`). The frames that leave through the gate are such
frames: final and masked (`Parcel.frame`).
-/

namespace WebSocket

namespace Frame

/-- Number of bytes in front of the key. -/
def lengthEnd (payloadLength : Nat) : Nat :=
  2 + (if payloadLength ≤ 125 then 0 else if payloadLength ≤ 65535 then 2 else 8)

/-! ### The first two bytes -/

theorem firstByte_low (frame : Frame) : frame.firstByte &&& 0x0F = frame.opcode.toByte := by
  obtain ⟨fin, rsv1, rsv2, rsv3, opcode, payload⟩ := frame
  simp only [firstByte]
  cases opcode <;> revert fin rsv1 rsv2 rsv3 <;> decide

theorem decode_firstByte (frame : Frame) :
    Opcode.decode (frame.firstByte &&& 0x0F) = .ok frame.opcode := by
  rw [firstByte_low, Opcode.decode, Opcode.ofByte?_toByte]

theorem firstByte_flags (frame : Frame) :
    (frame.firstByte &&& 0x80 != 0) = frame.fin ∧ (frame.firstByte &&& 0x40 != 0) = frame.rsv1 ∧
      (frame.firstByte &&& 0x20 != 0) = frame.rsv2 ∧
      (frame.firstByte &&& 0x10 != 0) = frame.rsv3 := by
  obtain ⟨fin, rsv1, rsv2, rsv3, opcode, payload⟩ := frame
  simp only [firstByte]
  cases opcode <;> revert fin rsv1 rsv2 rsv3 <;> decide

theorem withFlags_firstByte (frame : Frame) (op : Opcode) (mask : Option MaskKey)
    (payloadLength size : Nat) :
    Header.withFlags frame.firstByte op mask payloadLength size =
      ⟨frame.fin, frame.rsv1, frame.rsv2, frame.rsv3, op, mask, payloadLength, size⟩ := by
  obtain ⟨fin, rsv1, rsv2, rsv3⟩ := frame.firstByte_flags
  simp only [Header.withFlags, fin, rsv1, rsv2, rsv3]

theorem secondByte (masked : Bool) {n : Nat} (fits : n < 128) :
    (bit 0x80 masked ||| UInt8.ofNat n) &&& 0x7F = UInt8.ofNat n ∧
      isMasked (bit 0x80 masked ||| UInt8.ofNat n) = masked := by
  revert n masked
  decide

/-! ### The header -/

/-- Where the length ends: what was written up to there announces the payload. -/
structure Announces (payloadLength : Nat) (masked : Bool) (second : UInt8) (extended : Bytes) :
    Prop where
  masked : isMasked second = masked
  size : 2 + extended.length = lengthEnd payloadLength
  announced : ∀ first tail, announcedLength (first :: second :: (extended ++ tail)) =
    .ok (some (payloadLength, lengthEnd payloadLength))

theorem announces_short (masked : Bool) {n : Nat} (short : n ≤ 125) :
    Announces n masked (bit 0x80 masked ||| UInt8.ofNat n) [] := by
  obtain ⟨low, isMasked⟩ := secondByte masked (n := n) (by omega)
  have value : (UInt8.ofNat n).toNat = n := by
    rw [UInt8.toNat_ofNat']
    omega
  refine ⟨isMasked, by simp [lengthEnd, short], fun first tail => ?_⟩
  simp only [announcedLength, low, value, short, if_true, lengthEnd, Nat.add_zero]

theorem announces_medium (masked : Bool) {n : Nat} (long : ¬n ≤ 125) (medium : n ≤ 65535) :
    Announces n masked (bit 0x80 masked ||| 126) (Bytes.ofNat 2 n) := by
  obtain ⟨low, isMasked⟩ := secondByte masked (n := 126) (by omega)
  have value : Bytes.toNat (Bytes.ofNat 2 n) = n := Bytes.toNat_ofNat 2 n (by omega)
  refine ⟨isMasked, by simp [lengthEnd, long, medium], fun first tail => ?_⟩
  change (_ ||| (126 : UInt8)) &&& 0x7F = 126 at low
  simp only [announcedLength, low, lengthEnd, long, medium, if_true, if_false]
  exact congrArg (fun length => Except.ok (some (length, 4))) value

theorem announces_long (masked : Bool) {n : Nat} (long : ¬n ≤ 65535) (bounded : n < 2 ^ 63) :
    Announces n masked (bit 0x80 masked ||| 127) (Bytes.ofNat 8 n) := by
  obtain ⟨low, isMasked⟩ := secondByte masked (n := 127) (by omega)
  have value : Bytes.toNat (Bytes.ofNat 8 n) = n := Bytes.toNat_ofNat 8 n (by omega)
  have notShort : ¬n ≤ 125 := by omega
  refine ⟨isMasked, by simp [lengthEnd, long, notShort], fun first tail => ?_⟩
  change (_ ||| (127 : UInt8)) &&& 0x7F = 127 at low
  simp only [announcedLength, low, lengthEnd, long, notShort, if_false]
  change (if Bytes.toNat (Bytes.ofNat 8 n) < 1 <<< 63 then _ else _) = _
  rw [value, if_pos (by simpa using bounded)]
  exact congrArg (fun length => Except.ok (some (length, 10))) value

theorem lengthAndKey_announces (mask : Option MaskKey) {n : Nat} (bounded : n < 2 ^ 63) :
    ∃ second extended, Announces n mask.isSome second extended ∧
      lengthAndKey n mask = second :: (extended ++ (mask.map MaskKey.toBytes).getD []) := by
  by_cases short : n ≤ 125
  · exact ⟨_, _, announces_short mask.isSome short, by simp [lengthAndKey, short]⟩
  by_cases medium : n ≤ 65535
  · exact ⟨_, _, announces_medium mask.isSome short medium, by simp [lengthAndKey, short, medium]⟩
  · exact ⟨_, _, announces_long mask.isSome medium bounded, by simp [lengthAndKey, short, medium]⟩

theorem encodedLength_eq (payloadLength : Nat) (masked : Bool) :
    encodedLength payloadLength masked =
      lengthEnd payloadLength + (if masked then 4 else 0) + payloadLength := rfl

theorem length_toBytes (key : MaskKey) : key.toBytes.length = 4 := rfl

/-- The header that a written frame has. -/
def header (frame : Frame) (mask : Option MaskKey) : Header :=
  ⟨frame.fin, frame.rsv1, frame.rsv2, frame.rsv3, frame.opcode, mask, frame.payload.length,
    lengthEnd frame.payload.length + (if mask.isSome then 4 else 0)⟩

theorem headerParse_written (frame : Frame) (mask : Option MaskKey) (tail : Bytes)
    (bounded : frame.payload.length < 2 ^ 63) :
    Header.parse (frame.firstByte :: (lengthAndKey frame.payload.length mask ++ tail)) =
      .ok (frame.header mask) := by
  obtain ⟨second, extended, announces, written⟩ := lengthAndKey_announces mask bounded
  have size : lengthEnd frame.payload.length - 2 = extended.length := by
    have := announces.size
    omega
  simp only [written, List.cons_append, List.append_assoc, Header.parse, decode_firstByte,
    announces.announced, announces.masked, size, List.drop_left]
  cases mask with
  | none => simp [header, withFlags_firstByte]
  | some key =>
    simp only [Option.isSome_some, if_true, Option.map_some, Option.getD_some, MaskKey.toBytes,
      List.cons_append, withFlags_firstByte, header]

/-! ### Frames -/

theorem length_cover (mask : Option MaskKey) (payload : Bytes) :
    (cover mask payload).length = payload.length := by
  cases mask with
  | none => rfl
  | some key => simp only [cover, MaskKey.applyWords_eq_apply, MaskKey.length_apply]

theorem frame_header_cover (frame : Frame) (mask : Option MaskKey) :
    (frame.header mask).frame (cover mask frame.payload) = frame := by
  cases mask with
  | none => rfl
  | some key => simp only [Header.frame, header, cover, MaskKey.applyWords_eq_apply,
      MaskKey.apply_apply]

theorem length_lengthAndKey (mask : Option MaskKey) {n : Nat} (bounded : n < 2 ^ 63) :
    (lengthAndKey n mask).length + 1 = lengthEnd n + (if mask.isSome then 4 else 0) := by
  obtain ⟨second, extended, announces, written⟩ := lengthAndKey_announces mask bounded
  rw [written, ← announces.size]
  cases mask with
  | none => simp; omega
  | some key => simp [length_toBytes]; omega

theorem length_encode (frame : Frame) (mask : Option MaskKey)
    (bounded : frame.payload.length < 2 ^ 63) :
    (frame.encode mask).length = frame.wireSize mask.isSome := by
  have size := length_lengthAndKey mask bounded
  simp only [encode, List.cons_append, List.length_cons, List.length_append, length_cover,
    wireSize, encodedLength_eq]
  omega

theorem parse_encode_append (frame : Frame) (mask : Option MaskKey) (rest : Bytes)
    (bounded : frame.payload.length < 2 ^ 63) :
    parse (frame.encode mask ++ rest) = .ok (frame, frame.wireSize mask.isSome) := by
  have size := length_lengthAndKey mask bounded
  have read := headerParse_written frame mask (cover mask frame.payload ++ rest) bounded
  have drop : (frame.encode mask ++ rest).drop (frame.header mask).size =
      cover mask frame.payload ++ rest := by
    have front : (frame.header mask).size =
        (frame.firstByte :: lengthAndKey frame.payload.length mask).length := by
      simp only [header, List.length_cons]
      omega
    simp only [encode, List.append_assoc]
    rw [front, List.drop_left]
  have take : (cover mask frame.payload ++ rest).take frame.payload.length =
      cover mask frame.payload := by
    rw [← length_cover mask frame.payload, List.take_left]
  have whole : ¬1 <<< 64 ≤ (frame.header mask).size + frame.payload.length := by
    simp only [header, lengthEnd, Nat.reduceShiftLeft]
    split_ifs <;> omega
  simp only [encode, List.cons_append, List.append_assoc] at drop
  unfold parse
  simp only [encode, List.cons_append, List.append_assoc, read]
  have length : (frame.header mask).payloadLength = frame.payload.length := rfl
  rw [length, if_neg whole, drop, take, length_cover, if_neg (Nat.lt_irrefl _),
    frame_header_cover]
  rfl

theorem length_payload_le_encode (frame : Frame) (mask : Option MaskKey) :
    frame.payload.length ≤ (frame.encode mask).length := by
  rw [encode, List.length_append, length_cover]
  omega

/-- A written frame that fits a buffer is read back whole. -/
theorem parse_encode (frame : Frame) (mask : Option MaskKey)
    (bounded : (frame.encode mask).length < 2 ^ 63) :
    parse (frame.encode mask) = .ok (frame, (frame.encode mask).length) := by
  have short : frame.payload.length < 2 ^ 63 :=
    Nat.lt_of_le_of_lt (frame.length_payload_le_encode mask) bounded
  have read := frame.parse_encode_append mask [] short
  rwa [List.append_nil, ← length_encode _ _ short] at read

end Frame

/-! ### Parcels -/

/-- The frame that a parcel is sent as. -/
def Parcel.frame (parcel : Parcel) : Frame :=
  { opcode := parcel.opcode, payload := Frame.statusBytes parcel.status ++ parcel.payload }

theorem Parcel.firstByte_frame (parcel : Parcel) :
    parcel.frame.firstByte = 0x80 ||| parcel.opcode.toByte := by
  obtain ⟨opcode, payload, status⟩ := parcel
  simp only [Parcel.frame, Frame.firstByte]
  cases opcode <;> decide

theorem Parcel.encode_eq (parcel : Parcel) (key : MaskKey) :
    parcel.encode key = parcel.frame.encode (some key) := by
  simp only [Parcel.encode, Frame.encodeFinal, Frame.encode, Parcel.firstByte_frame]
  rfl

end WebSocket
