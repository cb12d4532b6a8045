import WebSocket.Proofs.Frame.Written

/-!
# Frames one after another

A frame is appended to a buffer as it is, or as a final frame with a status in front of its payload.
Neither way touches what the buffer held, and what was added is read back frame by frame
(`parseAll_appendAll`).
-/

namespace WebSocket

/-! ### Writing one after another -/

/-- A frame to be written, and the key to cover it with. -/
inductive Writing where
  | asIs (frame : Frame) (mask : Option MaskKey)
  /-- A final frame, with a status in front of its payload if there is one. -/
  | final (parcel : Parcel) (mask : Option MaskKey)

namespace Writing

def frame : Writing → Frame
  | asIs frame _ => frame
  | final parcel _ => parcel.frame

def mask : Writing → Option MaskKey
  | asIs _ mask | final _ mask => mask

/-- The bytes that stand for the frame. -/
def bytes (w : Writing) : Bytes := w.frame.encode w.mask

/-- Appends the frame to a buffer; gives the number of bytes added. -/
def appendTo (buffer : Bytes) : Writing → Nat × Bytes
  | asIs frame mask => frame.append mask buffer
  | final parcel mask =>
    Frame.appendFinal parcel.opcode parcel.payload parcel.status mask buffer

/-- Appends frames one after another; gives the number of bytes added for each. -/
def appendAll : List Writing → Bytes → List Nat × Bytes
  | [], buffer => ([], buffer)
  | w :: later, buffer =>
    let (count, buffer) := w.appendTo buffer
    let (counts, buffer) := appendAll later buffer
    (count :: counts, buffer)

end Writing

theorem Frame.put_eq (first : UInt8) (payload : Bytes) (mask : Option MaskKey) (buffer : Bytes) :
    put first payload mask buffer =
      let added := first :: lengthAndKey payload.length mask ++ cover mask payload
      (added.length, buffer ++ added) := by
  simp only [put, List.take_left, List.drop_left]
  rw [List.append_assoc, List.length_append, Nat.add_sub_cancel_left]

theorem Writing.appendTo_eq (w : Writing) (buffer : Bytes) :
    w.appendTo buffer = (w.bytes.length, buffer ++ w.bytes) := by
  cases w with
  | asIs frame mask => exact Frame.put_eq _ _ _ _
  | final parcel mask =>
    show Frame.put _ _ _ _ = _
    rw [Frame.put_eq, ← parcel.firstByte_frame]
    rfl

theorem Writing.appendAll_eq (ws : List Writing) (buffer : Bytes) :
    appendAll ws buffer =
      ((ws.map bytes).map List.length, buffer ++ (ws.map bytes).flatten) := by
  induction ws generalizing buffer with
  | nil => simp [appendAll]
  | cons w later ih =>
    simp only [appendAll, appendTo_eq, ih, List.map_cons, List.flatten_cons, List.append_assoc]

/-! ### Reading one after another -/

namespace Frame

/-- Reads frames off the front as long as there is one; gives each with the number of bytes that it
took, and what is left. -/
def parseAll (bytes : Bytes) : List (Frame × Nat) × Bytes :=
  match parsed : parse bytes with
  | .error _ => ([], bytes)
  | .ok (frame, used) =>
    have := bounds_of_parse parsed
    let (later, rest) := parseAll (bytes.drop used)
    ((frame, used) :: later, rest)
termination_by bytes.length
decreasing_by simp only [List.length_drop]; omega

theorem parseAll_of_error {bytes : Bytes} {e : Error} (h : parse bytes = .error e) :
    parseAll bytes = ([], bytes) := by
  rw [parseAll]
  split <;> simp_all

theorem parseAll_of_ok {bytes : Bytes} {frame : Frame} {used : Nat}
    (h : parse bytes = .ok (frame, used)) :
    parseAll bytes =
      ((frame, used) :: (parseAll (bytes.drop used)).1, (parseAll (bytes.drop used)).2) := by
  rw [parseAll]
  split <;> simp_all

end Frame

theorem Writing.length_bytes (w : Writing) (bounded : w.frame.payload.length < 2 ^ 63) :
    w.bytes.length = Frame.encodedLength w.frame.payload.length w.mask.isSome :=
  w.frame.length_encode w.mask bounded

theorem Writing.parseAll_bytes (w : Writing) (bounded : w.frame.payload.length < 2 ^ 63)
    (rest : Bytes) :
    Frame.parseAll (w.bytes ++ rest) =
      ((w.frame, w.bytes.length) :: (Frame.parseAll rest).1, (Frame.parseAll rest).2) := by
  have read : Frame.parse (w.bytes ++ rest) = .ok (w.frame, w.bytes.length) := by
    rw [w.length_bytes bounded]
    exact w.frame.parse_encode_append w.mask rest bounded
  rw [Frame.parseAll_of_ok read, List.drop_left]

theorem Writing.parseAll_flatten {ws : List Writing}
    (bounded : ∀ w ∈ ws, w.frame.payload.length < 2 ^ 63) (rest : Bytes) :
    Frame.parseAll ((ws.map bytes).flatten ++ rest) =
      ((ws.map frame).zip ((ws.map bytes).map List.length) ++ (Frame.parseAll rest).1,
        (Frame.parseAll rest).2) := by
  induction ws with
  | nil => simp
  | cons w later ih =>
    have first := bounded w List.mem_cons_self
    have others := ih fun other isIn => bounded other (List.mem_cons_of_mem _ isIn)
    rw [List.map_cons, List.flatten_cons, List.append_assoc, w.parseAll_bytes first, others]
    rfl

/-- Frames appended one after another to a buffer leave what it held as it was. The number that is
given for each frame is that of the bytes added for it, which depends on the length of its payload
only, and what was added is read back as the same frames, each from the bytes added for it. -/
theorem Writing.parseAll_appendAll (ws : List Writing) (buffer : Bytes)
    (bounded : ∀ w ∈ ws, w.frame.payload.length < 2 ^ 63) :
    ∃ pieces : List Bytes,
      appendAll ws buffer = (pieces.map List.length, buffer ++ pieces.flatten) ∧
      pieces.map List.length =
        ws.map (fun w => Frame.encodedLength w.frame.payload.length w.mask.isSome) ∧
      Frame.parseAll pieces.flatten = ((ws.map frame).zip (pieces.map List.length), []) := by
  refine ⟨ws.map bytes, appendAll_eq ws buffer, ?_, ?_⟩
  · rw [List.map_map]
    exact List.map_congr_left fun w isIn => w.length_bytes (bounded w isIn)
  · have nothing : Frame.parseAll [] = ([], []) := Frame.parseAll_of_error rfl
    have read := parseAll_flatten bounded []
    rw [nothing, List.append_nil, List.append_nil] at read
    exact read

/-- A fragment with a reserved bit, a masked ping, a masked close with a status, and a payload that
needs the longest form of the length. -/
def Writing.ofAllForms : List Writing :=
  [.asIs { fin := false, rsv2 := true, opcode := .text, payload := List.replicate 126 0x61 } none,
    .asIs { opcode := .ping, payload := [] } (some ⟨1, 2, 3, 4⟩),
    .final ⟨.close, [0x62, 0x79, 0x65], some 1000⟩ (some ⟨5, 6, 7, 8⟩),
    .final ⟨.binary, List.replicate 65536 0, none⟩ none]

theorem Writing.parseAll_appendAll_ofAllForms :
    (∀ w ∈ ofAllForms, w.frame.payload.length < 2 ^ 63) ∧
      ∃ pieces : List Bytes, pieces.map List.length = [130, 6, 11, 65546] ∧
        appendAll ofAllForms [0xFF] = (pieces.map List.length, 0xFF :: pieces.flatten) ∧
        Frame.parseAll pieces.flatten =
          ((ofAllForms.map frame).zip (pieces.map List.length), []) := by
  have lengths : ofAllForms.map (fun w => (w.frame.payload.length, w.mask.isSome)) =
      [(126, false), (0, true), (5, true), (65536, false)] := by
    simp only [ofAllForms, List.map_cons, List.map_nil, frame, mask, Parcel.frame,
      Frame.statusBytes, List.nil_append, List.length_replicate]
    rfl
  have bounded : ∀ w ∈ ofAllForms, w.frame.payload.length < 2 ^ 63 := by
    intro w isIn
    have one := List.mem_map_of_mem (f := fun w => (w.frame.payload.length, w.mask.isSome)) isIn
    rw [lengths] at one
    simp only [List.mem_cons, Prod.mk.injEq, List.not_mem_nil, or_false] at one
    omega
  obtain ⟨pieces, appended, counts, read⟩ := parseAll_appendAll ofAllForms [0xFF] bounded
  refine ⟨bounded, pieces, ?_, appended, read⟩
  have sizes := congrArg
    (List.map fun size : Nat × Bool => Frame.encodedLength size.1 size.2) lengths
  rw [List.map_map] at sizes
  exact counts.trans sizes

end WebSocket
