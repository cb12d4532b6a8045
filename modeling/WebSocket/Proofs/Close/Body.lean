import WebSocket.Close.Body
import WebSocket.Proofs.Frame.Sequence

/-!
# Reading and writing the payload of a close

The payloads that are read as a status and a reason are just those that are written so, and what was
read is written again as the same bytes (`CloseBody.parse_roundTrip`).
-/

namespace WebSocket

namespace CloseCode

/-- What may be sent depends on the status alone, not on how the code is named. -/
theorem isAllowed_ofStatus (code : CloseCode) :
    (ofStatus code.status).isAllowed = code.isAllowed := by
  simp only [isAllowed, status_ofStatus]

theorem not_reserved_of_allowed {code : CloseCode} (allowed : code.isAllowed = true) :
    code.isReserved = false := by
  simp only [isAllowed, isReserved, Bool.or_eq_true, Bool.and_eq_true, decide_eq_true_eq,
    Bool.or_eq_false_iff, Bool.and_eq_false_iff, decide_eq_false_iff_not, beq_eq_false_iff_ne,
    UInt16.le_iff_toNat_le, ← UInt16.toNat_inj, UInt16.reduceToNat, ne_eq] at allowed ⊢
  omega

end CloseCode

/-! ### Payloads -/

namespace CloseBody

theorem parse_written {code : CloseCode} (allowed : code.isAllowed = true) (reason : String) :
    parse (Bytes.ofUInt16 code.status ++ Bytes.ofString reason) =
      .ok (some ⟨.ofStatus code.status, reason⟩) := by
  obtain ⟨high, low, written, read⟩ := Bytes.ofUInt16_eq code.status
  have may : (CloseCode.ofStatus code.status).isAllowed = true :=
    code.isAllowed_ofStatus.trans allowed
  have text := Bytes.toString?_ofString reason
  rw [written]
  simp only [List.cons_append, List.nil_append, parse, read, may, text, Bool.not_true,
    Bool.false_eq_true, if_false]

theorem parse_eq_none_iff (payload : Bytes) : parse payload = .ok none ↔ payload = [] := by
  refine ⟨fun parsed => ?_, fun empty => empty ▸ rfl⟩
  rcases payload with - | ⟨high, - | ⟨low, reason⟩⟩
  · rfl
  · cases parsed
  · simp only [parse] at parsed
    split at parsed
    · cases parsed
    · split at parsed <;> cases parsed

/-- A body is read from what is written so, and from nothing else. -/
theorem parse_eq_some_iff (payload : Bytes) (body : CloseBody) :
    parse payload = .ok (some body) ↔ ∃ status reason,
      payload = Bytes.ofUInt16 status ++ Bytes.ofString reason ∧
      (CloseCode.ofStatus status).isAllowed ∧ body = ⟨.ofStatus status, reason⟩ := by
  constructor
  · intro parsed
    rcases payload with - | ⟨high, - | ⟨low, rest⟩⟩
    · cases parsed
    · cases parsed
    simp only [parse] at parsed
    split at parsed
    · cases parsed
    rename_i allowed
    split at parsed
    · rename_i reason read
      cases parsed
      rw [Bool.not_eq_true', Bool.not_eq_false] at allowed
      refine ⟨_, reason, ?_, allowed, rfl⟩
      rw [Bytes.ofUInt16_toUInt16, Bytes.toString?_eq_some_iff.mp read]
      rfl
    · cases parsed
  · rintro ⟨status, reason, rfl, allowed, rfl⟩
    have written := parse_written allowed reason
    rwa [CloseCode.status_ofStatus] at written

end CloseBody

/-! ### Frames -/

theorem Frame.closeStatus?_close (status : UInt16) (reason : Bytes) :
    (close (some status) reason).closeStatus? = some status := by
  obtain ⟨high, low, written, read⟩ := Bytes.ofUInt16_eq status
  simp only [closeStatus?, close, written, List.cons_append, read]

/-- A close with a status is a final frame with the status in front of its payload. -/
theorem Frame.parse_appendFinal_close (status : UInt16) (reason : Bytes) (mask : Option MaskKey)
    (bounded : (appendFinal .close reason (some status) mask []).2.length < 2 ^ 63) :
    let written := (appendFinal .close reason (some status) mask []).2
    parse written = .ok (close (some status) reason, written.length) := by
  let w : Writing := .final ⟨.close, reason, some status⟩ mask
  have appended : (appendFinal .close reason (some status) mask []).2 = w.bytes :=
    congrArg Prod.snd (w.appendTo_eq [])
  rw [appended] at bounded ⊢
  exact w.frame.parse_encode w.mask bounded

namespace CloseBody

/-- An empty payload is read as no body, and a payload is read as a body exactly if it is written as
a status that may be sent and a text. What was read is written again as the same bytes. Whatever
code may be sent, by whatever name, and whatever the reason, the close that is written is read back,
by the name that its status has. (No buffer holds so many bytes as a length cannot say.) -/
theorem parse_roundTrip :
    (∀ payload : Bytes,
      (parse payload = .ok none ↔ payload = []) ∧
      ∀ body, (parse payload = .ok (some body) ↔ ∃ status reason,
          payload = Bytes.ofUInt16 status ++ Bytes.ofString reason ∧
          (CloseCode.ofStatus status).isAllowed ∧ body = ⟨.ofStatus status, reason⟩) ∧
        (parse payload = .ok (some body) →
          let frame := Frame.close (some body.code.status) (Bytes.ofString body.reason)
          frame.payload = payload ∧ frame.closeStatus? = some body.code.status ∧
            body.code = .ofStatus body.code.status)) ∧
    ∀ code : CloseCode, code.isAllowed → ∀ (reason : String) (mask : Option MaskKey),
      let written :=
        (Frame.appendFinal .close (Bytes.ofString reason) (some code.status) mask []).2
      let frame := Frame.close (some code.status) (Bytes.ofString reason)
      (written.length < 2 ^ 63 → Frame.parse written = .ok (frame, written.length)) ∧
        parse frame.payload = .ok (some ⟨.ofStatus code.status, reason⟩) := by
  refine ⟨fun payload => ⟨parse_eq_none_iff payload, fun body =>
    ⟨parse_eq_some_iff payload body, fun parsed => ?_⟩⟩, fun code allowed reason mask => ?_⟩
  · obtain ⟨status, reason, rfl, -, rfl⟩ := (parse_eq_some_iff payload body).mp parsed
    simp only [CloseCode.status_ofStatus, and_true]
    exact ⟨rfl, Frame.closeStatus?_close _ _⟩
  · exact ⟨Frame.parse_appendFinal_close _ _ mask, parse_written allowed reason⟩

/-- A server that goes away, and a code that names its status by the number. -/
theorem parse_roundTrip_goingAway :
    let payload : Bytes := [0x03, 0xE9, 0x62, 0x79, 0x65]
    let frame := Frame.close (some 1001) (Bytes.ofString "bye")
    let written := (Frame.appendFinal .close (Bytes.ofString "bye")
      (some (CloseCode.other 1001).status) (some ⟨1, 2, 3, 4⟩) []).2
    (parse payload = .ok (some ⟨.goingAway, "bye"⟩) ∧ frame.payload = payload ∧
      frame.closeStatus? = some 1001) ∧
    ((CloseCode.other 1001).isAllowed ∧ written.length < 2 ^ 63) ∧
      Frame.parse written = .ok (frame, written.length) ∧
      parse frame.payload = .ok (some ⟨.goingAway, "bye"⟩) := by
  intro payload frame written
  obtain ⟨reading, writing⟩ := parse_roundTrip
  have parsed : parse payload = .ok (some ⟨.goingAway, "bye"⟩) := by decide +kernel
  have allowed : (CloseCode.other 1001).isAllowed = true := by decide
  have short : written.length < 2 ^ 63 := by decide +kernel
  obtain ⟨same, status, -⟩ := ((reading payload).2 _).2 parsed
  obtain ⟨framed, body⟩ := writing (.other 1001) allowed "bye" (some ⟨1, 2, 3, 4⟩)
  exact ⟨⟨parsed, same, status⟩, ⟨allowed, short⟩, framed short, body⟩

end CloseBody

end WebSocket
