import WebSocket.Frame

/-!
# Reading a frame from the front of a byte string

`Frame.parse` reads one frame and says how many bytes it took, so that the bytes after it can be
read as the next frame. A byte string that stops too early is `incompleteFrame` with a number of
bytes that are certainly still missing; every other error stays, whatever bytes follow.
-/

namespace WebSocket

/-- The opcode in the low four bits of a frame's first byte (`from_u8`). -/
def Opcode.decode (byte : UInt8) : Except Error Opcode :=
  match Opcode.ofByte? byte with
  | some op => .ok op
  | none => .error (if byte < 0x10 then .reservedOpcode byte else .invalidOpcode byte)

namespace Frame

/-- The payload length that the header at the front announces, and how many bytes the header has
up to there (`announced_len`); `none` if the length is not all there. -/
def announcedLength : Bytes → Except Error (Option (Nat × Nat))
  | _ :: second :: rest =>
    let short := (second &&& 0x7F).toNat
    if short ≤ 125 then .ok (some (short, 2))
    else if short = 126 then
      match rest with
      | a :: b :: _ => .ok (some (Bytes.toNat [a, b], 4))
      | _ => .ok none
    else
      match rest with
      | a :: b :: c :: d :: e :: f :: g :: h :: _ =>
        let length := Bytes.toNat [a, b, c, d, e, f, g, h]
        if length < 1 <<< 63 then .ok (some (length, 10)) else .error (.lengthOverflow length)
      | _ => .ok none
  | _ => .ok none

/-- What `parse_header` reads: the fields of a header and its size. -/
structure Header where
  fin : Bool
  rsv1 : Bool
  rsv2 : Bool
  rsv3 : Bool
  opcode : Opcode
  mask : Option MaskKey
  payloadLength : Nat
  size : Nat
  deriving DecidableEq, Repr

def isMasked (second : UInt8) : Bool := second &&& 0x80 != 0

namespace Header

def withFlags (first : UInt8) (opcode : Opcode) (mask : Option MaskKey)
    (payloadLength size : Nat) : Header :=
  { fin := first &&& 0x80 != 0
    rsv1 := first &&& 0x40 != 0
    rsv2 := first &&& 0x20 != 0
    rsv3 := first &&& 0x10 != 0
    opcode, mask, payloadLength, size }

def parse : Bytes → Except Error Header
  | [] => .error (.incompleteFrame 2)
  | [_] => .error (.incompleteFrame 1)
  | first :: second :: rest =>
    match Opcode.decode (first &&& 0x0F), announcedLength (first :: second :: rest) with
    | .error e, _ => .error e
    | .ok _, .error e => .error e
    | .ok _, .ok none =>
      let size := if second &&& 0x7F = 126 then 4 else 10
      .error (.incompleteFrame (size - (2 + rest.length)))
    | .ok op, .ok (some (payloadLength, size)) =>
      if isMasked second then
        match rest.drop (size - 2) with
        | a :: b :: c :: d :: _ =>
          .ok (withFlags first op (some ⟨a, b, c, d⟩) payloadLength (size + 4))
        | short => .error (.incompleteFrame (4 - short.length))
      else .ok (withFlags first op none payloadLength size)

def frame (header : Header) (covered : Bytes) : Frame :=
  { fin := header.fin
    rsv1 := header.rsv1
    rsv2 := header.rsv2
    rsv3 := header.rsv3
    opcode := header.opcode
    payload := match header.mask with
      | some key => key.apply covered
      | none => covered }

end Header

def parse (bytes : Bytes) : Except Error (Frame × Nat) :=
  match Header.parse bytes with
  | .error e => .error e
  | .ok header =>
    if 1 <<< 64 ≤ header.size + header.payloadLength then
      .error (.lengthOverflow header.payloadLength)
    else
      let covered := (bytes.drop header.size).take header.payloadLength
      if covered.length < header.payloadLength then
        .error (.incompleteFrame (header.payloadLength - covered.length))
      else .ok (header.frame covered, header.size + header.payloadLength)

/-! ### Bounds -/

theorem bounds_of_announcedLength {bytes : Bytes} {length size : Nat}
    (h : announcedLength bytes = .ok (some (length, size))) : 2 ≤ size ∧ size ≤ bytes.length := by
  unfold announcedLength at h
  split at h
  · simp only at h
    split at h
    · cases h
      simp
    split at h <;> split at h <;> try cases h
    · simp
    split at h <;> cases h
    simp
  · cases h

theorem Header.bounds_of_parse {bytes : Bytes} {header : Header}
    (h : Header.parse bytes = .ok header) : 2 ≤ header.size ∧ header.size ≤ bytes.length := by
  unfold Header.parse at h
  split at h <;> try contradiction
  split at h <;> try contradiction
  rename_i announced
  have bounds := bounds_of_announcedLength announced
  split at h
  · split at h
    · rename_i key
      cases h
      have enough := congrArg List.length key
      simp only [List.length_drop, List.length_cons] at enough bounds
      simp only [Header.withFlags, List.length_cons]
      omega
    · contradiction
  · cases h
    exact bounds

/-- A frame takes at least two bytes and at most those there are. -/
theorem bounds_of_parse {bytes : Bytes} {frame : Frame} {used : Nat}
    (h : parse bytes = .ok (frame, used)) : 2 ≤ used ∧ used ≤ bytes.length := by
  unfold parse at h
  split at h <;> try contradiction
  rename_i header parsed
  have bounds := Header.bounds_of_parse parsed
  split at h <;> try contradiction
  simp only at h
  split at h <;> try contradiction
  rename_i enough
  simp only [Except.ok.injEq, Prod.mk.injEq] at h
  simp only [List.length_take, List.length_drop] at enough
  omega

end Frame

end WebSocket
