import WebSocket.Client.Wire
import WebSocket.Proofs.Frame.Written

/-!
# Streams of frames

The bytes on a connection are intact if they are complete frames and, at the end, at most a part of
one. An intact stream begins like a frame (`Intact.front`), and what is left of it after its first
frame is intact again (`Intact.drop`).
-/

namespace WebSocket

def IsFrame (bytes : Bytes) : Prop := ∃ (parcel : Parcel) (key : MaskKey), bytes = parcel.encode key

/-- Complete frames, and at the end at most a part of one. -/
inductive Intact : Bytes → Prop
  | part {frame bytes : Bytes} (isFrame : IsFrame frame) (front : bytes <+: frame) : Intact bytes
  | whole {frame rest : Bytes} (isFrame : IsFrame frame) (later : Intact rest) :
    Intact (frame ++ rest)

theorem intact_nil : Intact [] :=
  .part ⟨⟨.binary, [], none⟩, ⟨0, 0, 0, 0⟩, rfl⟩ List.nil_prefix

theorem IsFrame.two_le_length {frame : Bytes} (isFrame : IsFrame frame) : 2 ≤ frame.length := by
  obtain ⟨parcel, key, rfl⟩ := isFrame
  simp only [Parcel.encode, Frame.encodeFinal, Frame.lengthAndKey]
  split_ifs <;> simp only [List.cons_append, List.length_cons] <;> omega

theorem frontOpcode?_append {bytes : Bytes} (some : bytes ≠ []) (more : Bytes) :
    Frame.frontOpcode? (bytes ++ more) = Frame.frontOpcode? bytes := by
  cases bytes with
  | nil => exact absurd rfl some
  | cons first later => rfl

theorem Intact.front {bytes : Bytes} (intact : Intact bytes) (some : bytes ≠ []) :
    (Frame.frontOpcode? bytes).isSome := by
  cases intact with
  | part isFrame front =>
    obtain ⟨parcel, key, rfl⟩ := isFrame
    obtain ⟨rest, whole⟩ := front
    rw [← frontOpcode?_append some rest, whole, Frame.frontOpcode?_encode]
    rfl
  | @whole frame rest isFrame later =>
    have long := isFrame.two_le_length
    obtain ⟨parcel, key, rfl⟩ := isFrame
    rw [frontOpcode?_append (List.ne_nil_of_length_pos (by omega)), Frame.frontOpcode?_encode]
    rfl

theorem secondByte_inj {m n : Nat} (hm : m < 128) (hn : n < 128)
    (same : (0x80 : UInt8) ||| UInt8.ofNat m = 0x80 ||| UInt8.ofNat n) : m = n := by
  have low : UInt8.ofNat m = UInt8.ofNat n := by
    rw [← (Frame.secondByte true hm).1, ← (Frame.secondByte true hn).1]
    exact congrArg (· &&& 0x7F) same
  have value := congrArg UInt8.toNat low
  rw [UInt8.toNat_ofNat', UInt8.toNat_ofNat'] at value
  omega

/-- A short length stands in the second byte. -/
theorem IsFrame.length_of_second {frame : Bytes} (isFrame : IsFrame frame) {n : Nat}
    (short : n ≤ 125) (second : frame[1]? = some (0x80 ||| UInt8.ofNat n)) :
    frame.length = n + 6 := by
  obtain ⟨parcel, key, rfl⟩ := isFrame
  rw [Parcel.encode_eq] at second ⊢
  generalize parcel.frame = frame at *
  have same : frame.payload.length = n := by
    simp only [Frame.encode, Frame.lengthAndKey, Option.isSome_some, Frame.bit, if_true] at second
    split_ifs at second with literal medium
    · exact secondByte_inj (by omega) (by omega) (by simpa using second)
    · have := secondByte_inj (m := 126) (n := n) (by omega) (by omega) (by simpa using second)
      omega
    · have := secondByte_inj (m := 127) (n := n) (by omega) (by omega) (by simpa using second)
      omega
  rw [frame.length_encode (some key) (by omega), Frame.wireSize, Frame.encodedLength, same]
  simp only [short, if_true, Option.isSome_some]
  omega

theorem Intact.drop {bytes : Bytes} (intact : Intact bytes) {n : Nat} (short : n ≤ 125)
    (second : bytes[1]? = some (0x80 ||| UInt8.ofNat n)) : Intact (bytes.drop (n + 6)) := by
  cases intact with
  | @part frame _ isFrame front =>
    have same : frame[1]? = some (0x80 ||| UInt8.ofNat n) := by
      obtain ⟨rest, rfl⟩ := front
      rw [List.getElem?_append_left (List.getElem?_eq_some_iff.mp second).1]
      exact second
    have length := isFrame.length_of_second short same
    rw [List.drop_of_length_le (length ▸ front.length_le)]
    exact intact_nil
  | @whole frame rest isFrame later =>
    rw [List.getElem?_append_left isFrame.two_le_length] at second
    have length := isFrame.length_of_second short second
    rw [← length, List.drop_left]
    exact later

end WebSocket
