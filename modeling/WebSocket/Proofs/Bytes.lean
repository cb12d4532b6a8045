import Mathlib.Algebra.Ring.Nat
import Mathlib.Data.List.Induction
import WebSocket.Bytes

/-!
# Numbers and texts as bytes

A number that fits its width is read back as it was written (`toNat_ofNat`), and bytes that are read
as a number are what the number is written as in so many bytes (`ofNat_toNat`). Bytes are read as
the text, if any, that is written so (`toString?_eq_some_iff`).
-/

namespace WebSocket.Bytes

theorem toNat_ofNat_mod (width n : Nat) : toNat (ofNat width n) = n % 256 ^ width := by
  induction width generalizing n with
  | zero => simp [ofNat, toNat, Nat.mod_one]
  | succ width ih =>
    rw [ofNat, toNat_append_singleton, ih, Nat.pow_succ, Nat.mul_comm (256 ^ width) 256,
      Nat.mod_mul, UInt8.toNat_ofNat']
    omega

theorem toNat_ofNat (width n : Nat) (h : n < 256 ^ width) : toNat (ofNat width n) = n := by
  rw [toNat_ofNat_mod, Nat.mod_eq_of_lt h]

theorem ofNat_toNat (bytes : Bytes) : ofNat bytes.length (toNat bytes) = bytes := by
  induction bytes using List.reverseRecOn with
  | nil => rfl
  | append_singleton bytes b ih =>
    have low := b.toNat_lt
    have rest : (256 * toNat bytes + b.toNat) / 256 = toNat bytes := by omega
    have last : UInt8.ofNat (256 * toNat bytes + b.toNat) = b := by
      apply UInt8.toNat_inj.mp
      rw [UInt8.toNat_ofNat']
      omega
    rw [toNat_append_singleton, List.length_append, List.length_singleton, ofNat, rest, last, ih]

theorem toNat_lt (bytes : Bytes) : toNat bytes < 256 ^ bytes.length := by
  have value := toNat_ofNat_mod bytes.length (toNat bytes)
  rw [ofNat_toNat] at value
  rw [value]
  exact Nat.mod_lt _ (Nat.pow_pos (by decide))

theorem ofUInt16_eq (word : UInt16) :
    ∃ high low, ofUInt16 word = [high, low] ∧ toUInt16 high low = word := by
  have written : toNat (ofUInt16 word) = word.toNat := toNat_ofNat 2 word.toNat word.toNat_lt
  refine ⟨UInt8.ofNat (word.toNat / 256), UInt8.ofNat word.toNat, rfl, ?_⟩
  show UInt16.ofNat (toNat (ofUInt16 word)) = word
  rw [written, UInt16.ofNat_toNat]

theorem ofUInt16_toUInt16 (high low : UInt8) : ofUInt16 (toUInt16 high low) = [high, low] := by
  have small : toNat [high, low] < 256 ^ 2 := toNat_lt [high, low]
  have same : (toUInt16 high low).toNat = toNat [high, low] := by
    rw [toUInt16, UInt16.toNat_ofNat']
    omega
  rw [ofUInt16, same]
  exact ofNat_toNat [high, low]

theorem take_drop_append {bytes : Bytes} {i n : Nat} (enough : i + n ≤ bytes.length)
    (more : Bytes) : ((bytes ++ more).drop i).take n = (bytes.drop i).take n := by
  have left : n ≤ (bytes.drop i).length := by
    rw [List.length_drop]
    omega
  rw [List.drop_append_of_le_length (by omega), List.take_append_of_le_length left]

/-- What holds of every value that a byte can have holds of every byte. -/
theorem forall_byte {P : UInt8 → Prop} (values : ∀ n < 256, P (UInt8.ofNat n)) (byte : UInt8) :
    P byte := by
  have value := values byte.toNat byte.toNat_lt
  rwa [UInt8.ofNat_toNat] at value

theorem toString?_eq_some_iff {bytes : Bytes} {text : String} :
    toString? bytes = some text ↔ ofString text = bytes := by
  refine ⟨fun read => ?_, fun written => written ▸ toString?_ofString text⟩
  unfold toString? String.fromUTF8? at read
  split at read
  · cases read
    simp [ofString, String.fromUTF8]
  · cases read

end WebSocket.Bytes
