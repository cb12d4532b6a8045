import Mathlib.Data.Nat.ModEq
import Mathlib.Tactic.IntervalCases
import WebSocket.Proofs.Mask

/-!
# Keys that do not repeat

A source of keys walks once through all words before it comes back to the first: its counter grows
by an odd number, and each step of the mixing can be undone. So of 2^32 keys in a row each possible
key is one, and then they come again in the same order (`MaskSource.keys_cycle`).
-/

namespace WebSocket

theorem ByteOrder.join_split_littleEndian (word : UInt32) :
    let key := littleEndian.split word
    littleEndian.join key.k0 key.k1 key.k2 key.k3 = word := by
  apply UInt32.toBitVec_inj.mp
  ext i hi
  interval_cases i <;> simp [join, split, -UInt32.toUInt32_toUInt8]

namespace MaskSource

/-! ### Mixing undone -/

/-- A factor with an inverse can be taken to the other side. -/
theorem mul_eq_iff {factor : UInt32} (inverse : UInt32) (unit : factor * inverse = 1)
    (x y : UInt32) :
    x * factor = y ↔ x = y * inverse := by
  constructor
  · rintro rfl
    rw [UInt32.mul_assoc, unit, UInt32.mul_one]
  · rintro rfl
    rw [UInt32.mul_assoc, UInt32.mul_comm inverse, unit, UInt32.mul_one]

theorem shiftRight_thrice (word : UInt32) : word >>> 13 >>> 13 >>> 13 = 0 := by
  apply UInt32.toNat_inj.mp
  have small := word.toNat_lt
  simp only [UInt32.toNat_shiftRight, UInt32.reduceToNat, Nat.reduceMod,
    Nat.shiftRight_eq_div_pow]
  omega

/-- What was combined with its higher bits is recovered from the top down. -/
theorem xor_shiftRight_eq_iff (x y : UInt32) :
    x ^^^ (x >>> 13) = y ↔ x = y ^^^ (y >>> 13) ^^^ (y >>> 13 >>> 13) := by
  constructor
  · rintro rfl
    simp only [UInt32.shiftRight_xor, shiftRight_thrice]
    rw [UInt32.xor_zero, UInt32.xor_assoc x, ← UInt32.xor_assoc (x >>> 13), UInt32.xor_self,
      UInt32.zero_xor, UInt32.xor_assoc, UInt32.xor_self, UInt32.xor_zero]
  · rintro rfl
    simp only [UInt32.shiftRight_xor, shiftRight_thrice]
    rw [UInt32.xor_zero, UInt32.xor_assoc y, UInt32.xor_assoc, UInt32.xor_self, UInt32.xor_zero]

/-- The counter that is mixed into a word. -/
def unmix (word : UInt32) : UInt32 :=
  let folded := word * 0x7ED1B41D
  (folded ^^^ (folded >>> 13) ^^^ (folded >>> 13 >>> 13)) * 0xA5CB9243

theorem mix_eq_iff (counter word : UInt32) : mix counter = word ↔ counter = unmix word := by
  simp only [mix]
  -- The last of the three steps is undone first.
  rw [mul_eq_iff 0x7ED1B41D (by decide), xor_shiftRight_eq_iff,
    mul_eq_iff 0xA5CB9243 (by decide)]
  rfl

/-! ### Keys one after another -/

/-- The source after it has dealt out so many keys. -/
def after (source : MaskSource) : Nat → MaskSource
  | 0 => source
  | n + 1 => (source.after n).next.2

/-- The key that follows so many others. -/
def keyAfter (source : MaskSource) (n : Nat) : MaskKey := (source.after n).next.1

theorem after_next (source : MaskSource) (n : Nat) :
    source.next.2.after n = source.after (n + 1) := by
  induction n with
  | zero => simp only [after]
  | succ n ih => rw [after, ih, ← after]

theorem keyAfter_next (source : MaskSource) (n : Nat) :
    source.next.2.keyAfter n = source.keyAfter (n + 1) := by
  rw [keyAfter, after_next, keyAfter]

theorem counter_after (source : MaskSource) (n : Nat) :
    (source.after n).counter = source.counter + UInt32.ofNat n * 0x9E3779B9 := by
  induction n with
  | zero => simp [after]
  | succ n ih =>
    show (source.after n).counter + 0x9E3779B9 = _
    rw [ih, UInt32.ofNat_add, UInt32.add_mul, UInt32.add_assoc]
    rfl

/-- The place of a key in the order in which a source deals out all keys. -/
def place (source : MaskSource) (key : MaskKey) : UInt32 :=
  (unmix (ByteOrder.littleEndian.join key.k0 key.k1 key.k2 key.k3) - source.counter) * 0x144CBC89

theorem split_eq_iff (word : UInt32) (key : MaskKey) :
    ByteOrder.littleEndian.split word = key ↔
      word = ByteOrder.littleEndian.join key.k0 key.k1 key.k2 key.k3 := by
  constructor
  · rintro rfl
    exact (ByteOrder.join_split_littleEndian word).symm
  · rintro rfl
    exact ByteOrder.littleEndian.split_join key.k0 key.k1 key.k2 key.k3

theorem keyAfter_eq_iff (source : MaskSource) (n : Nat) (key : MaskKey) :
    source.keyAfter n = key ↔ UInt32.ofNat (n + 1) = source.place key := by
  have counter : (source.after n).step.counter =
      source.counter + UInt32.ofNat (n + 1) * 0x9E3779B9 := source.counter_after (n + 1)
  show ByteOrder.littleEndian.split (mix (source.after n).step.counter) = key ↔ _
  rw [split_eq_iff, mix_eq_iff, counter, place, UInt32.add_comm, ← UInt32.eq_sub_iff_add_eq,
    mul_eq_iff 0x144CBC89 (by decide)]

theorem keyAfter_eq_keyAfter_iff (source : MaskSource) (m n : Nat) :
    source.keyAfter m = source.keyAfter n ↔ m ≡ n [MOD 2 ^ 32] := by
  rw [keyAfter_eq_iff, ← (source.keyAfter_eq_iff n _).mp rfl, ← UInt32.toNat_inj,
    UInt32.toNat_ofNat', UInt32.toNat_ofNat']
  exact ⟨Nat.ModEq.add_right_cancel' 1, Nat.ModEq.add_right 1⟩

/-- From any key on, of the next 2^32 keys no two are the same and each possible key is one, and the
keys come again after a number of steps exactly if it is a multiple of 2^32. -/
theorem keys_cycle (source : MaskSource) :
    (∀ start i j, i < 2 ^ 32 → j < 2 ^ 32 →
      source.keyAfter (start + i) = source.keyAfter (start + j) → i = j) ∧
    (∀ start key, ∃! i, i < 2 ^ 32 ∧ source.keyAfter (start + i) = key) ∧
    ∀ period, (∀ n, source.keyAfter (n + period) = source.keyAfter n) ↔ 2 ^ 32 ∣ period := by
  have differ : ∀ start i j, i < 2 ^ 32 → j < 2 ^ 32 →
      source.keyAfter (start + i) = source.keyAfter (start + j) → i = j := by
    intro start i j small small' same
    have congruent := (source.keyAfter_eq_keyAfter_iff _ _).mp same
    exact (Nat.ModEq.add_left_cancel' start congruent).eq_of_lt_of_lt small small'
  refine ⟨differ, fun start key => ?_, fun period => ?_⟩
  · -- The counter is at the key once it has gone from its own place to the key's.
    let distance := source.place key - UInt32.ofNat (start + 1)
    have reached : source.keyAfter (start + distance.toNat) = key := by
      rw [keyAfter_eq_iff, Nat.add_right_comm, UInt32.ofNat_add, UInt32.ofNat_toNat,
        UInt32.add_comm, UInt32.sub_add_cancel]
    refine ⟨distance.toNat, ⟨distance.toNat_lt, reached⟩, fun i ⟨small, same⟩ => ?_⟩
    exact differ start i distance.toNat small distance.toNat_lt (same.trans reached.symm)
  · have periodic : ∀ n, source.keyAfter (n + period) = source.keyAfter n ↔ 2 ^ 32 ∣ period := by
      intro n
      rw [keyAfter_eq_keyAfter_iff, ← Nat.modEq_zero_iff_dvd]
      exact ⟨Nat.ModEq.add_left_cancel' (b := 0) n, Nat.ModEq.add_left n⟩
    exact ⟨fun always => (periodic 0).mp (always 0), fun whole n => (periodic n).mpr whole⟩

theorem keys_cycle_seed :
    let source : MaskSource := ⟨42⟩
    (3 < 2 ^ 32 ∧ 5 < 2 ^ 32 ∧ source.keyAfter (7 + 3) ≠ source.keyAfter (7 + 5)) ∧
      (∃! i, i < 2 ^ 32 ∧ source.keyAfter (7 + i) = ⟨1, 2, 3, 4⟩) ∧
      source.keyAfter (7 + 2 ^ 32) = source.keyAfter 7 := by
  intro source
  obtain ⟨differ, each, period⟩ := source.keys_cycle
  have differ := mt (differ 7 3 5 (by decide) (by decide)) (by decide)
  exact ⟨⟨by decide, by decide, differ⟩, each 7 _, (period (2 ^ 32)).mpr (Nat.dvd_refl _) 7⟩

end MaskSource

end WebSocket
