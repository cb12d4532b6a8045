import Mathlib.Tactic.IntervalCases
import WebSocket.Mask

/-!
# Covering word by word and byte by byte

The two ways of covering a payload give the same bytes, whatever the order of bytes in a word
(`applyWords_eq_apply`), and covering twice uncovers (`apply_apply`), in whichever way it is done.
-/

namespace WebSocket

/-! ### Words -/

namespace ByteOrder

theorem split_join (order : ByteOrder) (a b c d : UInt8) :
    order.split (order.join a b c d) = ⟨a, b, c, d⟩ := by
  have little : ∀ a b c d, littleEndian.split (littleEndian.join a b c d) = ⟨a, b, c, d⟩ := by
    intro a b c d
    simp only [join, split, MaskKey.mk.injEq]
    refine ⟨?_, ?_, ?_, ?_⟩
    all_goals
      apply UInt8.toBitVec_inj.mp
      ext i hi
      interval_cases i <;> simp [BitVec.getLsbD_of_ge]
  cases order with
  | littleEndian => exact little a b c d
  | bigEndian =>
    have reversed := little d c b a
    simp only [split, MaskKey.mk.injEq] at reversed ⊢
    obtain ⟨h₀, h₁, h₂, h₃⟩ := reversed
    exact ⟨h₃, h₂, h₁, h₀⟩

theorem join_xor_join (order : ByteOrder) (a b c d k₀ k₁ k₂ k₃ : UInt8) :
    order.join a b c d ^^^ order.join k₀ k₁ k₂ k₃ =
      order.join (a ^^^ k₀) (b ^^^ k₁) (c ^^^ k₂) (d ^^^ k₃) := by
  have little : ∀ a b c d k₀ k₁ k₂ k₃,
      littleEndian.join a b c d ^^^ littleEndian.join k₀ k₁ k₂ k₃ =
        littleEndian.join (a ^^^ k₀) (b ^^^ k₁) (c ^^^ k₂) (d ^^^ k₃) := by
    intro a b c d k₀ k₁ k₂ k₃
    apply UInt32.toBitVec_inj.mp
    ext i hi
    interval_cases i <;> simp [join, BitVec.getLsbD_of_ge]
  cases order with
  | littleEndian => exact little a b c d k₀ k₁ k₂ k₃
  | bigEndian => exact little d c b a k₃ k₂ k₁ k₀

end ByteOrder

/-! ### Payloads -/

namespace MaskKey

theorem coverWord_join (order : ByteOrder) (key : MaskKey) (a b c d : UInt8) :
    coverWord order (order.join key.k0 key.k1 key.k2 key.k3) a b c d =
      ⟨a ^^^ key.k0, b ^^^ key.k1, c ^^^ key.k2, d ^^^ key.k3⟩ := by
  rw [coverWord, ByteOrder.join_xor_join, ByteOrder.split_join]

theorem byteAt_add_four (key : MaskKey) (position : Nat) :
    key.byteAt (position + 4) = key.byteAt position := by
  simp only [byteAt, Nat.add_mod_right]

/-- Four bytes are covered by the four bytes of the key, and then the key starts anew. -/
theorem apply_word (key : MaskKey) (a b c d : UInt8) (rest : Bytes) :
    key.apply (a :: b :: c :: d :: rest) =
      (a ^^^ key.k0) :: (b ^^^ key.k1) :: (c ^^^ key.k2) :: (d ^^^ key.k3) :: key.apply rest := by
  simp only [apply, List.mapIdx_cons, Nat.add_assoc, Nat.reduceAdd, byteAt_add_four]
  rfl

/-- What is left over is covered by as many bytes of the key. -/
theorem apply_tail (key : MaskKey) {tail : Bytes} (short : tail.length < 4) :
    key.apply tail = List.zipWith (· ^^^ ·) tail key.toBytes := by
  rcases tail with - | ⟨a, - | ⟨b, - | ⟨c, - | ⟨d, rest⟩⟩⟩⟩
  · rfl
  · rfl
  · rfl
  · rfl
  · simp only [List.length_cons] at short
    omega

theorem applyWordsTo_eq (order : ByteOrder) (key : MaskKey) (done payload : Bytes) :
    applyWordsTo order key (order.join key.k0 key.k1 key.k2 key.k3) done payload =
      done.reverse ++ key.apply payload := by
  fun_induction applyWordsTo order key (order.join key.k0 key.k1 key.k2 key.k3) done payload with
  | case1 done a b c d rest covered ih =>
    rw [ih, apply_word]
    simp only [covered, coverWord_join, List.reverse_cons, List.append_assoc, List.cons_append,
      List.nil_append]
  | case2 done tail notWord =>
    have short : tail.length < 4 := by
      rcases tail with - | ⟨a, - | ⟨b, - | ⟨c, - | ⟨d, rest⟩⟩⟩⟩
      · simp
      · simp
      · simp
      · simp
      · exact (notWord a b c d rest rfl).elim
    rw [apply_tail key short]

theorem applyWords_eq_apply (order : ByteOrder) (key : MaskKey) (payload : Bytes) :
    key.applyWords order payload = key.apply payload :=
  applyWordsTo_eq order key [] payload

@[simp] theorem length_apply (key : MaskKey) (payload : Bytes) :
    (key.apply payload).length = payload.length := List.length_mapIdx

theorem apply_apply (key : MaskKey) (payload : Bytes) :
    key.apply (key.apply payload) = payload := by
  refine List.ext_getElem (by simp) fun i _ _ => ?_
  simp only [apply, List.getElem_mapIdx, UInt8.xor_assoc, UInt8.xor_self, UInt8.xor_zero]

/-- Both ways of covering are one, and what was covered in either is uncovered in either, even where
bytes count in another order. -/
theorem uncovered_either_way (key : MaskKey) (order other : ByteOrder) (payload : Bytes) :
    key.applyWords order payload = key.apply payload ∧
      key.apply (key.apply payload) = payload ∧
      key.apply (key.applyWords order payload) = payload ∧
      key.applyWords other (key.apply payload) = payload ∧
      key.applyWords other (key.applyWords order payload) = payload := by
  have back := apply_apply key payload
  refine ⟨applyWords_eq_apply order key payload, back, ?_, ?_, ?_⟩
  · rw [applyWords_eq_apply, back]
  · rw [applyWords_eq_apply, back]
  · rw [applyWords_eq_apply, applyWords_eq_apply, back]

end MaskKey

end WebSocket
