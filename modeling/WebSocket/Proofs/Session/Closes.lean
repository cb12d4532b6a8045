import WebSocket.Proofs.Close.Body
import WebSocket.Proofs.Session.Legal

/-!
# Closes that are sent

Whatever a client is asked and whatever it reads, a close that it hands over has a status that may
be sent and a reason that is text, and is read as such (`close_of_reachable`). The status comes from
the application, whose codes are checked; from the server's close, which is refused with any other
status before it counts; from an error; or it is the normal one.
-/

namespace WebSocket

/-! ### Parcels -/

theorem Parcel.opcode_of_front {parcel : Parcel} {key : MaskKey} {op : Opcode}
    (front : Frame.frontOpcode? (parcel.encode key) = some op) : parcel.opcode = op := by
  rw [Frame.frontOpcode?_encode] at front
  exact Option.some.inj front

/-- A frame that it hands over is that of a proper parcel. -/
def Request.Proper (r : Request) : Prop :=
  ∀ bytes, r.frame? = some bytes →
    ∃ (parcel : Parcel) (key : MaskKey), parcel.Proper ∧ bytes = parcel.encode key

theorem Request.proper_of_none {r : Request} (other : r.frame? = none) : r.Proper := by
  intro bytes frame
  rw [other] at frame
  cases frame

theorem Call.every_proper (call : Call) :
    call.action.Every (fun _ => True) (fun _ _ => True) Request.Proper := by
  refine call.composed.every (fun _ _ _ => trivial) (fun _ => trivial) (fun _ _ _ _ _ => trivial)
    (fun _ => Request.proper_of_none) (fun _ _ => Request.proper_of_none rfl) ?_
  intro r parcel key orders frame bytes same
  rw [frame] at same
  cases same
  exact ⟨parcel, key, orders.proper, rfl⟩

/-! ### Sessions -/

/-- Every close that was handed over is read by the other side as a close with a status that may be
sent and a reason, whoever closed and for whatever reason. -/
theorem close_of_reachable {config : Config} {seed : UInt32} {s : Session}
    (reachable : Session.Reachable config seed s) {bytes : Bytes}
    (isHanded : bytes ∈ handed s.history) (isClose : Frame.frontOpcode? bytes = some .close) :
    ∃ (frame : Frame) (key : MaskKey) (status : UInt16) (reason : String),
      bytes = frame.encode (some key) ∧ frame.opcode = .close ∧
      (bytes.length < 2 ^ 63 → OneFrame frame bytes) ∧
      frame.payload = Bytes.ofUInt16 status ++ Bytes.ofString reason ∧
      (CloseCode.ofStatus status).isAllowed = true ∧
      (CloseCode.ofStatus status).isReserved = false ∧
      CloseBody.parse frame.payload = .ok (some ⟨.ofStatus status, reason⟩) := by
  obtain ⟨request, asked, frame⟩ := asked_of_handed isHanded
  obtain ⟨-, sent⟩ : ∃ _ : Call, request.Proper :=
    Session.asked_of_reachable Call.every_proper reachable asked
  obtain ⟨parcel, key, proper, rfl⟩ := sent bytes frame
  obtain ⟨code, reason, allowed, rfl⟩ := proper (Parcel.opcode_of_front isClose)
  have may : (CloseCode.ofStatus code.status).isAllowed = true :=
    code.isAllowed_ofStatus.trans allowed
  let parcel := closeParcel code.status (Bytes.ofString reason)
  exact ⟨parcel.frame, key, code.status, reason, parcel.encode_eq key, rfl, parcel.oneFrame key,
    rfl, may, CloseCode.not_reserved_of_allowed may, CloseBody.parse_written allowed reason⟩

/-- The server goes away, with a reason; the echo has the status only. -/
theorem close_of_reachable_echo :
    let echo : Bytes := [136, 130, 169, 167, 98, 29, 170, 78]
    ∃ s frame status reason,
      Session.after
        (openConnection ++ [.call (.bytesArrived [0x88, 0x05, 0x03, 0xE9, 0x62, 0x79, 0x65])])
        (.ofConfig {} 0) = some s ∧
      handed s.history = [echo] ∧ Frame.frontOpcode? echo = some .close ∧ OneFrame frame echo ∧
      (CloseCode.ofStatus status).isAllowed = true ∧
      CloseBody.parse frame.payload = .ok (some ⟨.ofStatus status, reason⟩) := by
  intro echo
  have played : (Session.after
      (openConnection ++ [.call (.bytesArrived [0x88, 0x05, 0x03, 0xE9, 0x62, 0x79, 0x65])])
      (.ofConfig {} 0)).map (fun s => handed s.history) = some [echo] := by
    decide +kernel
  obtain ⟨s, made, told⟩ := Option.map_eq_some_iff.mp played
  have isHanded : echo ∈ handed s.history := told ▸ List.mem_singleton_self _
  obtain ⟨frame, key, status, reason, -, -, oneFrame, -, allowed, -, parsed⟩ :=
    close_of_reachable (.after .start made) isHanded (by decide)
  exact ⟨s, frame, status, reason, made, told, by decide, oneFrame (by decide), allowed, parsed⟩

end WebSocket
