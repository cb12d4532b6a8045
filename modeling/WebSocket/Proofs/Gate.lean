import WebSocket.Gate.Outbound
import WebSocket.Proofs.Frame.Sequence
import WebSocket.Proofs.MaskSource

/-!
# What passes the gate

However many frames have passed the gate, and whatever became of its buffer meanwhile, the next one
that is admitted is handed over once and by itself: the bytes are those that a frame of its own
takes under the next key, and one that is refused leaves no trace (`Outbound.handed_of_calls`).
-/

namespace WebSocket

/-- What a frame takes in a buffer that holds nothing else. -/
def Parcel.alone (parcel : Parcel) (key : MaskKey) : Bytes :=
  (Frame.appendFinal parcel.opcode parcel.payload parcel.status (some key) []).2

theorem Parcel.alone_eq (parcel : Parcel) (key : MaskKey) :
    parcel.alone key = (Writing.final parcel (some key)).bytes :=
  congrArg Prod.snd ((Writing.final parcel (some key)).appendTo_eq [])

theorem Parcel.length_alone (parcel : Parcel) (key : MaskKey)
    (bounded : parcel.frame.payload.length < 2 ^ 63) :
    (parcel.alone key).length = Frame.encodedLength parcel.frame.payload.length true := by
  rw [alone_eq]
  exact Writing.length_bytes (.final parcel (some key)) bounded

theorem Parcel.alone_eq_encode (parcel : Parcel) (key : MaskKey) :
    parcel.alone key = parcel.encode key := by
  rw [alone_eq, encode_eq]
  rfl

namespace SendBuffer

variable (alloc : Allocation) (buffer : SendBuffer)

@[simp] theorem bytes_reserve (more : Nat) : (buffer.reserve alloc more).bytes = buffer.bytes := by
  simp only [reserve]
  split <;> rfl

theorem le_room_reserve (more : Nat) :
    buffer.bytes.length + more ≤ (buffer.reserve alloc more).room := by
  simp only [reserve]
  split
  · assumption
  · exact alloc.le_grown _ _

theorem bytes_write_clear (parcel : Parcel) (key : MaskKey) :
    (buffer.clear.write alloc parcel key).bytes = parcel.alone key := by
  simp only [write, bytes_reserve]
  rfl

/-- What is reserved before a frame is written is enough for it. -/
theorem length_write_clear_le (parcel : Parcel) (key : MaskKey)
    (bounded : parcel.frame.payload.length < 2 ^ 63) :
    (buffer.clear.write alloc parcel key).bytes.length ≤
      (buffer.clear.write alloc parcel key).room := by
  rw [bytes_write_clear, parcel.length_alone key bounded, Parcel.frame, List.length_append]
  exact (Nat.le_add_left _ _).trans (le_room_reserve alloc buffer.clear _)

end SendBuffer

namespace Outbound

variable (alloc : Allocation) (o : Outbound) (parcel : Parcel)

/-! ### One frame -/

def gate : Gate := { masks := o.masks }

def passed : Outbound := (o.load alloc parcel).settle alloc

@[simp] theorem masks_settle : (o.settle alloc).masks = o.masks := by
  simp only [settle]
  split <;> rfl

@[simp] theorem masks_passed : (o.passed alloc parcel).masks = o.masks.next.2 :=
  masks_settle alloc _

/-- The buffer and its room do not show in what the gate gives. -/
theorem emit_gate :
    o.gate.emit parcel = (parcel.alone o.masks.next.1, (o.passed alloc parcel).gate) := by
  rw [gate, gate, masks_passed, Parcel.alone_eq_encode]
  rfl

/-- A frame that takes more than is retained leaves a new buffer behind. -/
theorem buffer_passed_of_large (bounded : parcel.frame.payload.length < 2 ^ 63)
    (large : max retainedRoom o.initialRoom < (parcel.alone o.masks.next.1).length) :
    (o.passed alloc parcel).buffer = SendBuffer.ofRoom alloc o.initialRoom := by
  have fits := o.buffer.length_write_clear_le alloc parcel o.masks.next.1 bounded
  rw [SendBuffer.bytes_write_clear] at fits
  have grown : max retainedRoom o.initialRoom < (o.load alloc parcel).buffer.room :=
    large.trans_le fits
  rw [passed, settle]
  exact congrArg buffer (if_pos grown)

/-- The buffer is no larger than what is retained and what there was at first. -/
def IsTrim : Prop :=
  o.buffer.room ≤ max (max retainedRoom o.initialRoom) (alloc.fresh o.initialRoom)

theorem isTrim_ofSeed (initialRoom : Nat) (seed : UInt32) :
    (ofSeed alloc initialRoom seed).IsTrim alloc :=
  Nat.le_max_right _ _

theorem isTrim_passed : (o.passed alloc parcel).IsTrim alloc := by
  simp only [IsTrim, passed, settle]
  split
  · exact Nat.le_max_right _ _
  · next small => exact (Nat.le_of_not_lt small).trans (Nat.le_max_left _ _)

section Running

variable {m : Type → Type} [Monad m] [LawfulMonad m] {ε α : Type}

/-- A frame is handed over once, and nothing else is done. -/
theorem run_send (transmit : Bytes → m α) :
    (send alloc parcel transmit).run o =
      (fun result => (result, o.passed alloc parcel)) <$>
        transmit (parcel.alone o.masks.next.1) := by
  have bytes : (o.load alloc parcel).buffer.bytes = parcel.alone o.masks.next.1 :=
    o.buffer.bytes_write_clear alloc parcel _
  simp [send, bytes, passed]

theorem run_sendIf (consent : m (Except ε Unit)) (transmit : Bytes → m α) :
    (sendIf alloc parcel consent transmit).run.run o = (do
      match ← consent with
      | .error e => return (.error e, o)
      | .ok _ =>
        (fun result => (.ok result, o.passed alloc parcel)) <$>
          transmit (parcel.alone o.masks.next.1)) := by
  have sent := run_send alloc o parcel transmit
  simp only [sendIf, ExceptT.run_bind, ExceptT.run_mk, StateT.run_bind, StateT.run_lift, bind_assoc,
    pure_bind]
  congr 1
  funext verdict
  cases verdict with
  | error e => rfl
  | ok _ => simp [sent]

end Running

end Outbound

/-! ### One call after another -/

/-- A call to send a frame, with an answer to the bytes that are handed over. -/
structure GateCall (ε α : Type) where
  parcel : Parcel
  /-- What the check says that is made first, if one is made. -/
  consent : Option (Except ε Unit) := none
  answer : Bytes → α

namespace GateCall

variable {ε α : Type}

def refusal? (call : GateCall ε α) : Option ε :=
  match call.consent with
  | some (.error e) => some e
  | _ => none

def isAdmitted (call : GateCall ε α) : Bool := call.refusal?.isNone

/-- Answers the bytes that are handed over, and keeps a record of them. -/
def transmit (call : GateCall ε α) (bytes : Bytes) : StateM (List Bytes) α :=
  modifyGet fun handed => (call.answer bytes, handed ++ [bytes])

def perform (alloc : Allocation) (call : GateCall ε α) :
    ExceptT ε (StateT Outbound (StateM (List Bytes))) α :=
  match call.consent with
  | none => ExceptT.lift (Outbound.send alloc call.parcel call.transmit)
  | some verdict => Outbound.sendIf alloc call.parcel (pure verdict) call.transmit

/-- Makes calls one after another; gives for each what it returned and what it handed over. -/
def performAll (alloc : Allocation) :
    List (GateCall ε α) → Outbound → List (Except ε α × List Bytes) × Outbound
  | [], o => ([], o)
  | call :: later, o =>
    let ((outcome, o), handed) := ((call.perform alloc).run.run o).run []
    let (outcomes, o) := performAll alloc later o
    ((outcome, handed) :: outcomes, o)

theorem perform_of_refused (alloc : Allocation) {call : GateCall ε α} {e : ε}
    (refused : call.refusal? = some e) (o : Outbound) (record : List Bytes) :
    ((call.perform alloc).run.run o).run record = ((.error e, o), record) := by
  simp only [refusal?] at refused
  split at refused
  · next verdict =>
    cases refused
    simp only [perform, verdict, Outbound.run_sendIf]
    rfl
  · cases refused

theorem perform_of_admitted (alloc : Allocation) {call : GateCall ε α}
    (admitted : call.refusal? = none) (o : Outbound) (record : List Bytes) :
    ((call.perform alloc).run.run o).run record =
      ((.ok (call.answer (call.parcel.alone o.masks.next.1)), o.passed alloc call.parcel),
        record ++ [call.parcel.alone o.masks.next.1]) := by
  simp only [refusal?] at admitted
  split at admitted
  · cases admitted
  · next unrefused =>
    simp only [perform]
    split
    · rw [ExceptT.run_lift, StateT.run_map, Outbound.run_send]
      rfl
    · next verdict given =>
      cases verdict with
      | error e => exact absurd given (unrefused e)
      | ok _ =>
        rw [Outbound.run_sendIf]
        rfl

/-- What a call gives back, and what it hands over: nothing if it is refused, else one byte string,
which is answered. -/
def Yields (call : GateCall ε α) (outcome : Except ε α × List Bytes) : Prop :=
  match call.refusal? with
  | some e => outcome = (.error e, [])
  | none => ∃ bytes, outcome = (.ok (call.answer bytes), [bytes])

theorem performAll_eq (alloc : Allocation) (calls : List (GateCall ε α)) (o : Outbound) :
    let outcomes := (performAll alloc calls o).1
    let admitted := (calls.filter isAdmitted).map parcel
    List.Forall₂ Yields calls outcomes ∧
      outcomes.flatMap Prod.snd =
        admitted.mapIdx (fun i parcel => parcel.alone (o.masks.keyAfter i)) ∧
      (performAll alloc calls o).2.masks = o.masks.after admitted.length := by
  -- The buffer may be any one: whatever it holds is cleared before the next frame is written.
  induction calls generalizing o with
  | nil => exact ⟨.nil, rfl, rfl⟩
  | cons call later ih =>
    cases verdict : call.refusal? with
    | some e =>
      obtain ⟨outcomes, handed, masks⟩ := ih o
      have out : isAdmitted call = false := by simp [isAdmitted, verdict]
      have yields : call.Yields (.error e, []) := by simp only [Yields, verdict]
      simp only [performAll, perform_of_refused alloc verdict, List.filter_cons, out]
      exact ⟨.cons yields outcomes, handed, masks⟩
    | none =>
      obtain ⟨outcomes, handed, masks⟩ := ih (o.passed alloc call.parcel)
      have isIn : isAdmitted call = true := by simp [isAdmitted, verdict]
      simp only [performAll, perform_of_admitted alloc verdict, List.filter_cons, isIn]
      simp only [Outbound.masks_passed, MaskSource.keyAfter_next] at handed
      simp only [Outbound.masks_passed, MaskSource.after_next] at masks
      refine ⟨.cons ?_ outcomes, ?_, masks⟩
      · simp only [Yields, verdict]
        exact ⟨_, rfl⟩
      · simp only [List.flatMap_cons, handed, if_true, List.map_cons, List.mapIdx_cons]
        rfl

theorem isTrim_performAll {alloc : Allocation} (calls : List (GateCall ε α)) {o : Outbound}
    (trim : o.IsTrim alloc) : (performAll alloc calls o).2.IsTrim alloc := by
  induction calls generalizing o with
  | nil => exact trim
  | cons call later ih =>
    cases verdict : call.refusal? with
    | some e =>
      simp only [performAll, perform_of_refused alloc verdict]
      exact ih trim
    | none =>
      simp only [performAll, perform_of_admitted alloc verdict]
      exact ih (o.isTrim_passed alloc call.parcel)

end GateCall

theorem Parcel.parseAll_alone (parcels : List Parcel) (key : Nat → MaskKey)
    (fits : ∀ bytes ∈ parcels.mapIdx (fun i parcel => parcel.alone (key i)),
      bytes.length < 2 ^ 63) :
    let pieces := parcels.mapIdx fun i parcel => parcel.alone (key i)
    Frame.parseAll pieces.flatten =
      ((parcels.map frame).zip (pieces.map List.length), []) := by
  intro pieces
  let ws := parcels.mapIdx fun i parcel => Writing.final parcel (some (key i))
  have bytes : ws.map Writing.bytes = pieces :=
    List.ext_getElem (by simp [ws, pieces]) (by simp [ws, pieces, alone_eq])
  have frames : ws.map Writing.frame = parcels.map frame :=
    List.ext_getElem (by simp [ws]) (by simp [ws, Writing.frame])
  have bounded : ∀ w ∈ ws, w.frame.payload.length < 2 ^ 63 := by
    intro w isIn
    have isPiece : w.bytes ∈ pieces := bytes ▸ List.mem_map_of_mem isIn
    exact (w.frame.length_payload_le_encode w.mask).trans_lt (fits _ isPiece)
  have nothing : Frame.parseAll [] = ([], []) := Frame.parseAll_of_error rfl
  have read := Writing.parseAll_flatten bounded []
  rwa [nothing, List.append_nil, List.append_nil, bytes, frames] at read

/-- Calls to send, one after another, from any state behind the gate. A call that is refused hands
nothing over, and any other one hands over one byte string: of those, the bytes that its frame takes
in an empty buffer under the key whose turn it is. All together are read back as the frames of the
calls that were not refused, each from its own bytes. (No buffer holds so many bytes as a length
cannot say.) -/
theorem Outbound.handed_of_calls {ε α : Type} (alloc : Allocation) (calls : List (GateCall ε α))
    (o : Outbound) :
    let outcomes := (GateCall.performAll alloc calls o).1
    let admitted := (calls.filter GateCall.isAdmitted).map GateCall.parcel
    let handed := outcomes.flatMap Prod.snd
    List.Forall₂ GateCall.Yields calls outcomes ∧
      handed = admitted.mapIdx (fun i parcel => parcel.alone (o.masks.keyAfter i)) ∧
      (GateCall.performAll alloc calls o).2.masks = o.masks.after admitted.length ∧
      ((∀ bytes ∈ handed, bytes.length < 2 ^ 63) →
        Frame.parseAll handed.flatten =
          ((admitted.map Parcel.frame).zip (handed.map List.length), [])) := by
  obtain ⟨yields, handed, masks⟩ := GateCall.performAll_eq alloc calls o
  refine ⟨yields, handed, masks, ?_⟩
  rw [handed]
  exact Parcel.parseAll_alone _ _

/-- A frame that is too large for its buffer to be kept, one that is refused, and a close with a
status. -/
def GateCall.ofAllSorts : List (GateCall String Nat) :=
  [{ parcel := ⟨.binary, List.replicate (2 * Outbound.retainedRoom) 1, none⟩
     answer := List.length },
    { parcel := ⟨.text, Bytes.ofString "no", none⟩
      consent := some (.error "closed")
      answer := List.length },
    { parcel := ⟨.close, [0x62, 0x79, 0x65], some 1001⟩
      consent := some (.ok ())
      answer := List.length }]

theorem Outbound.handed_of_calls_ofAllSorts :
    let start := ofSeed .doubling 64 1
    ∃ large small,
      (GateCall.performAll .doubling GateCall.ofAllSorts start).1 =
        [(.ok 2097166, [large]), (.error "closed", []), (.ok 11, [small])] ∧
      (∀ bytes ∈ [large, small], bytes.length < 2 ^ 63) ∧
      Frame.parseAll (large ++ small) =
        ([(.binary (List.replicate (2 * retainedRoom) 1), 2097166),
          (.close (some 1001) [0x62, 0x79, 0x65], 11)], []) := by
  intro start
  obtain ⟨yields, handed, -, read⟩ := handed_of_calls .doubling GateCall.ofAllSorts start
  let data : Parcel := ⟨.binary, List.replicate (2 * retainedRoom) 1, none⟩
  let bye : Parcel := ⟨.close, [0x62, 0x79, 0x65], some 1001⟩
  have admitted : (GateCall.ofAllSorts.filter GateCall.isAdmitted).map GateCall.parcel =
    [data, bye] := rfl
  rw [admitted] at handed read
  generalize (GateCall.performAll .doubling GateCall.ofAllSorts start).1 = outcomes at *
  obtain _ | ⟨⟨large, rfl⟩, _ | ⟨rfl, _ | ⟨⟨small, rfl⟩, _ | _⟩⟩⟩ := yields
  have handed : [large, small] =
    [data.alone (start.masks.keyAfter 0), bye.alone (start.masks.keyAfter 1)] := handed
  obtain ⟨isLarge, isSmall⟩ : large = _ ∧ small = _ := by simpa using handed
  have size : data.frame.payload.length = 2097152 := List.length_replicate
  have large_length : large.length = 2097166 := by
    rw [isLarge, data.length_alone _ (by rw [size]; decide), size]
    rfl
  have small_length : small.length = 11 := by
    rw [isSmall]
    exact bye.length_alone _ (by decide)
  have fits : ∀ bytes ∈ [large, small], bytes.length < 2 ^ 63 := by
    simp only [List.forall_mem_cons, large_length, small_length]
    decide
  have apart : Frame.parseAll (large ++ (small ++ [])) =
    ([(data.frame, large.length), (bye.frame, small.length)], []) := read fits
  rw [List.append_nil, large_length, small_length] at apart
  refine ⟨large, small, ?_, fits, apart⟩
  rw [← large_length, ← small_length]

end WebSocket
