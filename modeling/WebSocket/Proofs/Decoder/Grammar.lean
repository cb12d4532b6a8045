import WebSocket.Proofs.Bytes
import WebSocket.Proofs.Decoder.Growth
import WebSocket.Proofs.Frame.Written

/-!
# The grammar of a stream

Which frames a stream may hold, and what they tell, can be said without a decoder: each frame is
admissible by itself, and the data frames among them are messages one after another, of which the
last may be unfinished (`Messages`). A decoder accepts just these streams, and the events it gives
are what the frames tell, in order (`drain_wire`).
-/

namespace WebSocket

/-! ### The grammar -/

/-- What frames carry, one after another. -/
def content (frames : List Frame) : Bytes := (frames.map Frame.payload).flatten

/-- A frame that may stand in a stream, whatever stands around it. -/
structure Admissible (config : Config) (frame : Frame) (mask : Option MaskKey) : Prop where
  unmasked : mask = none ∨ config.acceptMasked = true
  size : frame.payload.length ≤ config.limits.maxFrameSize
  unreserved : frame.rsv1 = false ∧ frame.rsv2 = false ∧ frame.rsv3 = false
  control : frame.opcode.isControl →
    frame.fin = true ∧ frame.payload.length ≤ maxControlPayload
  close : frame.opcode = .close → ∃ body, CloseBody.parse frame.payload = .ok body

/-- The sort of message that its first frame begins. -/
def kindOf? (frames : List Frame) : Option DataKind :=
  frames.head?.bind fun frame => frame.opcode.begins?

/-- The frames of a message from its first one on, within limits. -/
structure Fragments (limits : Limits) (kind : DataKind) (frames : List Frame) : Prop where
  begins : kindOf? frames = some kind
  continues : ∀ frame ∈ frames.tail, frame.opcode = .continuation
  count : frames.length ≤ limits.maxFragments
  size : (content frames).length ≤ limits.maxMessageSize

def Message.kind : Message → DataKind
  | text _ => .text
  | binary _ => .binary

/-- Messages one after another, the last of which may be unfinished. Only the last frame of a
message is final. -/
inductive Messages (limits : Limits) : List Frame → List Message → Prop
  | none : Messages limits [] []
  | unfinished {kind : DataKind} {frames : List Frame} (fragments : Fragments limits kind frames)
    (notFinal : ∀ frame ∈ frames, frame.fin = false) : Messages limits frames []
  | finished {front rest : List Frame} {last : Frame} {message : Message}
    {messages : List Message} (fragments : Fragments limits message.kind (front ++ [last]))
    (notFinal : ∀ frame ∈ front, frame.fin = false) (final : last.fin = true)
    (carried : message.payload = content (front ++ [last]))
    (later : Messages limits rest messages) :
    Messages limits (front ++ last :: rest) (message :: messages)

/-- An event is what a control frame tells. -/
def Frame.Tells (frame : Frame) : Event → Prop
  | .ping payload => frame.opcode = .ping ∧ payload = frame.payload
  | .pong payload => frame.opcode = .pong ∧ payload = frame.payload
  | .close body => frame.opcode = .close ∧ CloseBody.parse frame.payload = .ok body
  | .message _ => False

/-- The events of a stream, in order: one for each control frame, and a message at the last frame of
each finished message. -/
inductive Told : List Frame → List Message → List Event → Prop
  | none : Told [] [] []
  | control {frame : Frame} {frames : List Frame} {messages : List Message} {event : Event}
    {events : List Event} (tells : frame.Tells event) (later : Told frames messages events) :
    Told (frame :: frames) messages (event :: events)
  | part {frame : Frame} {frames : List Frame} {messages : List Message} {events : List Event}
    (data : frame.opcode.isControl = false) (notFinal : frame.fin = false)
    (later : Told frames messages events) : Told (frame :: frames) messages events
  | message {frame : Frame} {frames : List Frame} {message : Message} {messages : List Message}
    {events : List Event} (data : frame.opcode.isControl = false) (final : frame.fin = true)
    (later : Told frames messages events) :
    Told (frame :: frames) (message :: messages) (.message message :: events)

/-- The bytes of a stream: frames written one after another, each with its key. -/
def wire (stream : List (Frame × Option MaskKey)) : Bytes :=
  (stream.map fun s => s.1.encode s.2).flatten

/-- The frames of a stream without the control frames. -/
def dataFrames (stream : List (Frame × Option MaskKey)) : List Frame :=
  (stream.map Prod.fst).filter fun frame => !frame.opcode.isControl

/-! ### Messages under way -/

theorem content_concat (frames : List Frame) (frame : Frame) :
    content (frames ++ [frame]) = content frames ++ frame.payload := by
  simp [content]

/-- The first frames of a message, if there are any. -/
def Underway (limits : Limits) (frames : List Frame) : Prop :=
  frames = [] ∨ ∃ kind, Fragments limits kind frames

theorem Fragments.front {limits : Limits} {kind : DataKind} {frames more : List Frame}
    {frame : Frame} (fragments : Fragments limits kind (frames ++ frame :: more)) :
    Fragments limits kind (frames ++ [frame]) := by
  have whole : frames ++ frame :: more = (frames ++ [frame]) ++ more := by simp
  have size := fragments.size
  have count := fragments.count
  rw [whole] at size count
  simp only [content, List.map_append, List.flatten_append, List.length_append] at size count
  refine ⟨?_, fun f isIn => fragments.continues f ?_, ?_, ?_⟩
  · rw [← fragments.begins]
    cases frames <;> rfl
  · rw [whole, List.tail_append_of_ne_nil (by simp)]
    exact List.mem_append_left _ isIn
  · rw [List.length_append]
    omega
  · simp only [content, List.map_append, List.flatten_append, List.length_append]
    omega

/-- Where a message under way meets messages, they share its frames. -/
theorem Messages.split {limits : Limits} {frames data : List Frame} {frame : Frame}
    {messages : List Message} (notFinal : ∀ f ∈ frames, f.fin = false)
    (are : Messages limits (frames ++ frame :: data) messages) :
    (∃ kind, Fragments limits kind (frames ++ [frame])) ∧
      (frame.fin = true → ∃ message later, messages = message :: later ∧
        Fragments limits message.kind (frames ++ [frame]) ∧
        message.payload = content (frames ++ [frame]) ∧ Messages limits data later) := by
  generalize all : frames ++ frame :: data = whole at are
  cases are with
  | none => simp at all
  | unfinished fragments notFinal' =>
    subst all
    refine ⟨⟨_, fragments.front⟩, fun final => ?_⟩
    have := notFinal' frame (by simp)
    rw [final] at this
    cases this
  | @finished front rest last message later fragments notFinal' final carried are =>
    rcases List.append_eq_append_iff.mp all with ⟨more, rfl, same⟩ | ⟨more, rfl, same⟩
    · cases more with
      | nil =>
        obtain ⟨rfl, rfl⟩ := List.cons.inj same
        rw [List.append_nil] at fragments carried
        exact ⟨⟨_, fragments⟩, fun _ => ⟨message, later, rfl, fragments, carried, are⟩⟩
      | cons first more =>
        obtain ⟨rfl, rfl⟩ := List.cons.inj same
        rw [List.append_assoc, List.cons_append] at fragments
        refine ⟨⟨_, fragments.front⟩, fun isFinal => ?_⟩
        have := notFinal' frame (by simp)
        rw [isFinal] at this
        cases this
    · cases more with
      | nil =>
        obtain ⟨rfl, rfl⟩ := List.cons.inj same
        rw [List.append_nil]
        exact ⟨⟨_, fragments⟩, fun _ => ⟨message, later, rfl, fragments, carried, are⟩⟩
      | cons first more =>
        obtain ⟨rfl, -⟩ := List.cons.inj same
        have := notFinal last (by simp)
        rw [final] at this
        cases this

/-! ### One frame -/

theorem Frame.validate_eq_ok_iff (frame : Frame) :
    frame.validate = .ok () ↔
      (frame.rsv1 = false ∧ frame.rsv2 = false ∧ frame.rsv3 = false) ∧
        (frame.opcode.isControl →
          frame.fin = true ∧ frame.payload.length ≤ maxControlPayload) := by
  unfold Frame.validate
  cases frame.rsv1 <;> cases frame.rsv2 <;> cases frame.rsv3 <;> cases frame.opcode.isControl <;>
    cases frame.fin <;> simp

theorem Admissible.valid {config : Config} {frame : Frame} {mask : Option MaskKey}
    (admissible : Admissible config frame mask) : frame.validate = .ok () :=
  frame.validate_eq_ok_iff.mpr ⟨admissible.unreserved, admissible.control⟩

namespace Assembly

/-- The assembly that holds the frames of a message under way. -/
def holding (limits : Limits) (frames : List Frame) : Assembly :=
  { limits
    kind := kindOf? frames
    fragments := frames.length
    gathered := content frames }

theorem complete_eq_ok_iff {kind : DataKind} {payload : Bytes} {message : Message} :
    complete kind payload = .ok message ↔ message.kind = kind ∧ message.payload = payload := by
  cases kind with
  | text =>
    cases read : Bytes.toString? payload with
    | none =>
      cases message with
      | text content =>
        simp [complete, read, Message.kind, Message.payload, ← Bytes.toString?_eq_some_iff]
      | binary content => simp [complete, read, Message.kind]
    | some text =>
      cases message with
      | text content =>
        simp [complete, read, Message.kind, Message.payload, ← Bytes.toString?_eq_some_iff]
      | binary content => simp [complete, read, Message.kind]
  | binary =>
    cases message with
    | text content => simp [complete, Message.kind]
    | binary content => simp [complete, Message.kind, Message.payload, eq_comm]

theorem kindFor_none (op : Opcode) (kind : DataKind) :
    kindFor none op = .ok kind ↔ op.begins? = some kind := by
  cases op <;> simp [kindFor, Opcode.begins?]

theorem kindFor_some (underway : DataKind) (op : Opcode) (kind : DataKind) :
    kindFor (some underway) op = .ok kind ↔ op = .continuation ∧ underway = kind := by
  cases op <;> simp [kindFor, Opcode.begins?]

/-- A frame goes with the frames under way just if they are fragments together. -/
theorem fragments_concat_iff {limits : Limits} {frames : List Frame} {frame : Frame}
    (underway : Underway limits frames) (kind : DataKind) :
    Fragments limits kind (frames ++ [frame]) ↔
      kindFor (kindOf? frames) frame.opcode = .ok kind ∧
        frames.length + 1 ≤ limits.maxFragments ∧
        (content frames).length + frame.payload.length ≤ limits.maxMessageSize := by
  have count : (frames ++ [frame]).length = frames.length + 1 := List.length_append
  have size : (content (frames ++ [frame])).length =
      (content frames).length + frame.payload.length := by
    rw [content_concat, List.length_append]
  have rest : kindFor (kindOf? frames) frame.opcode = .ok kind ↔
      kindOf? (frames ++ [frame]) = some kind ∧
        ∀ f ∈ (frames ++ [frame]).tail, f.opcode = .continuation := by
    cases underway with
    | inl none =>
      simp [none, kindOf?, kindFor_none]
    | inr some =>
      obtain ⟨begun, fragments⟩ := some
      obtain ⟨first, later, rfl⟩ : ∃ first later, frames = first :: later := by
        cases frames with
        | nil => cases fragments.begins
        | cons first later => exact ⟨first, later, rfl⟩
      have begins : kindOf? (first :: later ++ [frame]) = begun := fragments.begins
      have continues : ∀ f ∈ later, f.opcode = .continuation := fragments.continues
      rw [fragments.begins, kindFor_some, begins, Option.some.injEq]
      constructor
      · rintro ⟨continuation, same⟩
        refine ⟨same, fun f isIn => ?_⟩
        rcases List.mem_append.mp isIn with isEarlier | isLast
        · exact continues f isEarlier
        · exact List.mem_singleton.mp isLast ▸ continuation
      · rintro ⟨same, all⟩
        exact ⟨all frame (List.mem_append_right _ List.mem_cons_self), same⟩
  constructor
  · intro fragments
    exact ⟨rest.mpr ⟨fragments.begins, fragments.continues⟩, count ▸ fragments.count,
      size ▸ fragments.size⟩
  · rintro ⟨goes, fits, small⟩
    obtain ⟨begins, continues⟩ := rest.mp goes
    exact ⟨begins, continues, count ▸ fits, size ▸ small⟩

theorem push_of_fragments {limits : Limits} {frames : List Frame} {frame : Frame}
    {kind : DataKind} (underway : Underway limits frames)
    (fragments : Fragments limits kind (frames ++ [frame])) :
    (holding limits frames).push frame =
      if frame.fin then
        ((complete kind (content (frames ++ [frame]))).map some, holding limits [])
      else (.ok none, holding limits (frames ++ [frame])) := by
  obtain ⟨goes, fits, small⟩ := (fragments_concat_iff underway kind).mp fragments
  have counted : limits.checkFragments (frames.length + 1) = .ok () := if_pos fits
  have sized : limits.checkMessageSize ((content frames).length + frame.payload.length) = .ok () :=
    if_pos small
  simp only [push, holding, goes, counted, sized, content_concat, fragments.begins,
    List.length_append]
  rfl

theorem push_of_stranger {limits : Limits} {frames : List Frame} {frame : Frame}
    (underway : Underway limits frames)
    (stranger : ∀ kind, ¬Fragments limits kind (frames ++ [frame])) :
    ∃ e, ((holding limits frames).push frame).1 = .error e := by
  cases goes : kindFor (kindOf? frames) frame.opcode with
  | error violation => exact ⟨.protocolViolation violation, by simp only [push, holding, goes]⟩
  | ok kind =>
    have excess := mt (fragments_concat_iff underway kind).mpr (stranger kind)
    simp only [goes, true_and, not_and] at excess
    by_cases fits : frames.length + 1 ≤ limits.maxFragments
    · have counted : limits.checkFragments (frames.length + 1) = .ok () := if_pos fits
      have sized : limits.checkMessageSize ((content frames).length + frame.payload.length) =
          .error (.messageTooLarge _ _) := if_neg (excess fits)
      exact ⟨_, by simp only [push, holding, goes, counted, sized]; rfl⟩
    · have counted : limits.checkFragments (frames.length + 1) = .error (.tooManyFragments _ _) :=
        if_neg fits
      exact ⟨_, by simp only [push, holding, goes, counted]; rfl⟩

end Assembly

namespace Decoder

/-- The decoder that holds the frames of a message under way, and bytes. -/
def holding (config : Config) (frames : List Frame) (buffer : Bytes) : Decoder :=
  { acceptMasked := config.acceptMasked
    assembly := .holding config.limits frames
    buffer }

variable {config : Config} {frame : Frame} {mask : Option MaskKey} (underway : List Frame)
  (rest : Bytes)

theorem nextFrame_encode (bounded : frame.payload.length < 2 ^ 63) :
    (holding config underway (frame.encode mask ++ rest)).nextFrame =
      if mask.isSome && !config.acceptMasked then .error .maskedServerFrame
      else match config.limits.checkFrameSize frame.payload.length with
        | .error e => .error e
        | .ok _ => .ok (some (frame, holding config underway rest)) := by
  obtain ⟨second, extended, announces, written⟩ := Frame.lengthAndKey_announces mask bounded
  have front : (holding config underway (frame.encode mask ++ rest)).buffer =
      frame.firstByte :: second :: (extended ++ ((mask.map MaskKey.toBytes).getD [] ++
        (Frame.cover mask frame.payload ++ rest))) := by
    simp only [holding, Frame.encode, written, List.cons_append, List.append_assoc]
  have checked : checkAnnounced config.limits (frame.encode mask ++ rest) =
      config.limits.checkFrameSize frame.payload.length := by
    change checkAnnounced config.limits (holding config underway _).buffer = _
    rw [front, checkAnnounced, announces.announced]
  split_ifs with masked
  · exact nextFrame_masked front (by rw [announces.masked]; exact masked)
  · rw [nextFrame_unmasked front (by rw [announces.masked]; exact masked)]
    have parsed := Frame.parse_encode_append frame mask rest bounded
    have left : (frame.encode mask ++ rest).drop (frame.wireSize mask.isSome) = rest := by
      rw [← Frame.length_encode frame mask bounded, List.drop_left]
    have limits : (holding config underway (frame.encode mask ++ rest)).assembly.limits =
      config.limits := rfl
    have buffer : (holding config underway (frame.encode mask ++ rest)).buffer =
      frame.encode mask ++ rest := rfl
    rw [limits, buffer, checked]
    cases config.limits.checkFrameSize frame.payload.length with
    | error e => rfl
    | ok passed =>
      rw [parsed]
      simp only [holding, left]

theorem drain_of_inadmissible (bounded : frame.payload.length < 2 ^ 63)
    (inadmissible : ¬Admissible config frame mask) :
    ∃ e, (holding config underway (frame.encode mask ++ rest)).drain.fault = some e := by
  have refused : ∀ e left, (holding config underway (frame.encode mask ++ rest)).nextEvent =
      (.error e, left) →
      ∃ e, (holding config underway (frame.encode mask ++ rest)).drain.fault = some e :=
    fun _ _ h => ⟨_, congrArg Drained.fault (drain_of_error h)⟩
  have taken := @nextFrame_encode config frame mask underway rest bounded
  by_cases masked : (mask.isSome && !config.acceptMasked) = true
  · exact refused _ _ (nextEvent_of_error (taken.trans (if_pos masked)))
  rw [if_neg masked] at taken
  by_cases small : frame.payload.length ≤ config.limits.maxFrameSize
  swap
  · have large : config.limits.checkFrameSize frame.payload.length =
      .error (.frameTooLarge _ _) := if_neg small
    rw [large] at taken
    exact refused _ _ (nextEvent_of_error taken)
  have fits : config.limits.checkFrameSize frame.payload.length = .ok () := if_pos small
  rw [fits] at taken
  -- The frame is taken, so it has to be one that `accept` refuses.
  have failed : ∃ e, ((holding config underway rest).accept frame).1 = .error e := by
    cases valid : frame.validate with
    | error e => exact ⟨e, by simp only [accept, valid]⟩
    | ok passed =>
      obtain ⟨unreserved, control⟩ := frame.validate_eq_ok_iff.mp valid
      have badClose : ¬(frame.opcode = .close → ∃ body, CloseBody.parse frame.payload = .ok body) :=
        fun close => inadmissible ⟨by simpa [or_iff_not_imp_left, Option.ne_none_iff_isSome] using
          masked, small, unreserved, control, close⟩
      obtain ⟨isClose, bad⟩ := Classical.not_imp.mp badClose
      cases parsed : CloseBody.parse frame.payload with
      | ok body => exact absurd ⟨body, parsed⟩ bad
      | error e => exact ⟨e, by simp only [accept, valid, isClose, parsed]; rfl⟩
  obtain ⟨e, failed⟩ := failed
  refine refused e ((holding config underway rest).accept frame).2 ?_
  rw [nextEvent_of_loud taken (by simp [failed]), ← failed]

theorem nextFrame_of_admissible (bounded : frame.payload.length < 2 ^ 63)
    (admissible : Admissible config frame mask) :
    (holding config underway (frame.encode mask ++ rest)).nextFrame =
      .ok (some (frame, holding config underway rest)) := by
  have unmasked : ¬(mask.isSome && !config.acceptMasked) = true := by
    rcases admissible.unmasked with none | accepted
    · simp [none]
    · simp [accepted]
  have fits : config.limits.checkFrameSize frame.payload.length = .ok () :=
    if_pos admissible.size
  rw [nextFrame_encode underway rest bounded, if_neg unmasked, fits]

/-- A control frame gives its event at once and leaves the message under way alone. -/
theorem drain_of_control (bounded : frame.payload.length < 2 ^ 63)
    (admissible : Admissible config frame mask) (control : frame.opcode.isControl = true) :
    ∃ event, frame.Tells event ∧
      (holding config underway (frame.encode mask ++ rest)).drain =
        (holding config underway rest).drain.after [event] := by
  have accepted : ∃ event, frame.Tells event ∧
      (holding config underway rest).accept frame =
        (.ok (some event), holding config underway rest) := by
    cases opcode : frame.opcode with
    | ping =>
      exact ⟨.ping frame.payload, ⟨opcode, rfl⟩, by simp only [accept, admissible.valid, opcode]⟩
    | pong =>
      exact ⟨.pong frame.payload, ⟨opcode, rfl⟩, by simp only [accept, admissible.valid, opcode]⟩
    | close =>
      obtain ⟨body, parsed⟩ := admissible.close opcode
      exact ⟨.close body, ⟨opcode, parsed⟩,
        by simp only [accept, admissible.valid, opcode, parsed]; rfl⟩
    | text => simp [opcode, Opcode.isControl] at control
    | binary => simp [opcode, Opcode.isControl] at control
    | continuation => simp [opcode, Opcode.isControl] at control
  obtain ⟨event, tells, accepted⟩ := accepted
  refine ⟨event, tells, drain_of_some ?_⟩
  have taken := nextFrame_of_admissible underway rest bounded admissible
  rw [nextEvent_of_loud taken (by simp [accepted]), accepted]

theorem accept_data (d : Decoder) (valid : frame.validate = .ok ())
    (data : frame.opcode.isControl = false) :
    d.accept frame = ((d.assembly.push frame).1.map (Option.map .message),
      { d with assembly := (d.assembly.push frame).2 }) := by
  cases opcode : frame.opcode with
  | text => simp only [accept, valid, opcode]
  | binary => simp only [accept, valid, opcode]
  | continuation => simp only [accept, valid, opcode]
  | close => simp [opcode, Opcode.isControl] at data
  | ping => simp [opcode, Opcode.isControl] at data
  | pong => simp [opcode, Opcode.isControl] at data

theorem drain_of_refused (bounded : frame.payload.length < 2 ^ 63)
    (admissible : Admissible config frame mask) (data : frame.opcode.isControl = false) {e : Error}
    (refused : ((Assembly.holding config.limits underway).push frame).1 = .error e) :
    (holding config underway (frame.encode mask ++ rest)).drain.fault = some e := by
  have accepted : ((holding config underway rest).accept frame).1 = .error e := by
    rw [accept_data _ admissible.valid data]
    simp only [holding, refused]
    rfl
  have taken := nextFrame_of_admissible underway rest bounded admissible
  have failed : (holding config underway (frame.encode mask ++ rest)).nextEvent =
      (.error e, ((holding config underway rest).accept frame).2) := by
    rw [nextEvent_of_loud taken (by simp [accepted]), ← accepted]
  rw [drain_of_error failed]

theorem drain_of_part (bounded : frame.payload.length < 2 ^ 63)
    (admissible : Admissible config frame mask) (data : frame.opcode.isControl = false)
    (kept : (Assembly.holding config.limits underway).push frame =
      (.ok none, Assembly.holding config.limits (underway ++ [frame]))) :
    (holding config underway (frame.encode mask ++ rest)).drain =
      (holding config (underway ++ [frame]) rest).drain := by
  have accepted : (holding config underway rest).accept frame =
      (.ok none, holding config (underway ++ [frame]) rest) := by
    rw [accept_data _ admissible.valid data]
    simp only [holding, kept]
    rfl
  have taken := nextFrame_of_admissible underway rest bounded admissible
  refine drain_congr ?_
  rw [nextEvent_of_quiet taken (by rw [accepted]), accepted]

theorem drain_of_last (bounded : frame.payload.length < 2 ^ 63)
    (admissible : Admissible config frame mask) (data : frame.opcode.isControl = false)
    {message : Message}
    (finished : (Assembly.holding config.limits underway).push frame =
      (.ok (some message), Assembly.holding config.limits [])) :
    (holding config underway (frame.encode mask ++ rest)).drain =
      (holding config [] rest).drain.after [.message message] := by
  have accepted : (holding config underway rest).accept frame =
      (.ok (some (.message message)), holding config [] rest) := by
    rw [accept_data _ admissible.valid data]
    simp only [holding, finished]
    rfl
  have taken := nextFrame_of_admissible underway rest bounded admissible
  refine drain_of_some ?_
  rw [nextEvent_of_loud taken (by simp [accepted]), accepted]

/-- What a data frame can do: it is refused and no messages begin like this, it is a part of the
message under way, or it is its last one. -/
theorem drain_of_data (bounded : frame.payload.length < 2 ^ 63)
    (admissible : Admissible config frame mask) (data : frame.opcode.isControl = false)
    (begun : Underway config.limits underway) (notFinal : ∀ f ∈ underway, f.fin = false) :
    let drained := (holding config underway (frame.encode mask ++ rest)).drain
    (drained.fault.isSome ∧
        ∀ more messages, ¬Messages config.limits (underway ++ frame :: more) messages) ∨
      (frame.fin = false ∧ (∃ kind, Fragments config.limits kind (underway ++ [frame])) ∧
        drained = (holding config (underway ++ [frame]) rest).drain) ∨
      (frame.fin = true ∧ ∃ message, Fragments config.limits message.kind (underway ++ [frame]) ∧
        message.payload = content (underway ++ [frame]) ∧
        drained = (holding config [] rest).drain.after [.message message]) := by
  intro drained
  by_cases goes : ∃ kind, Fragments config.limits kind (underway ++ [frame])
  swap
  · left
    obtain ⟨e, refused⟩ := Assembly.push_of_stranger begun (not_exists.mp goes)
    refine ⟨by rw [drain_of_refused underway rest bounded admissible data refused]; rfl, ?_⟩
    exact fun more messages are => goes (are.split notFinal).1
  obtain ⟨kind, fragments⟩ := goes
  have pushed := Assembly.push_of_fragments begun fragments
  cases final : frame.fin with
  | false =>
    rw [final] at pushed
    have step := drain_of_part underway rest bounded admissible data pushed
    exact .inr (.inl ⟨rfl, ⟨kind, fragments⟩, step⟩)
  | true =>
    rw [final, if_pos rfl] at pushed
    cases finished : Assembly.complete kind (content (underway ++ [frame])) with
    | error e =>
      left
      have refused := congrArg Prod.fst pushed
      simp only [finished] at refused
      refine ⟨by rw [drain_of_refused underway rest bounded admissible data refused]; rfl,
        fun more messages are => ?_⟩
      -- A message that ends here would be complete.
      obtain ⟨message, later, -, same, carried, -⟩ := (are.split notFinal).2 final
      have kinds : message.kind = kind := Option.some.inj (same.begins.symm.trans fragments.begins)
      have whole := Assembly.complete_eq_ok_iff.mpr ⟨kinds, carried⟩
      rw [finished] at whole
      cases whole
    | ok message =>
      rw [finished] at pushed
      obtain ⟨rfl, carried⟩ := Assembly.complete_eq_ok_iff.mp finished
      exact .inr (.inr ⟨rfl, message, fragments, carried,
        drain_of_last underway rest bounded admissible data pushed⟩)

/-! ### Streams -/

theorem wire_cons (s : Frame × Option MaskKey) (later : List (Frame × Option MaskKey)) :
    wire (s :: later) = s.1.encode s.2 ++ wire later := rfl

theorem dataFrames_cons_control {s : Frame × Option MaskKey} (control : s.1.opcode.isControl = true)
    (later : List (Frame × Option MaskKey)) : dataFrames (s :: later) = dataFrames later := by
  simp [dataFrames, control]

theorem dataFrames_cons_data {s : Frame × Option MaskKey} (data : s.1.opcode.isControl = false)
    (later : List (Frame × Option MaskKey)) :
    dataFrames (s :: later) = s.1 :: dataFrames later := by
  simp [dataFrames, data]

/-- A stream read behind the frames of a message under way obeys the grammar, and the events are
what it tells. -/
structure Obeys (config : Config) (underway : List Frame) (stream : List (Frame × Option MaskKey))
    (drained : Drained) : Prop where
  admissible : ∀ s ∈ stream, Admissible config s.1 s.2
  told : ∃ messages, Messages config.limits (underway ++ dataFrames stream) messages ∧
    Told (stream.map Prod.fst) messages drained.events
  nothingLeft : drained.decoder.buffer = []

variable {underway : List Frame} {s : Frame × Option MaskKey}
  {later : List (Frame × Option MaskKey)} {drained : Drained}

theorem Obeys.control (admissible : Admissible config s.1 s.2)
    (control : s.1.opcode.isControl = true) {event : Event} (tells : s.1.Tells event)
    (obeys : Obeys config underway later drained) :
    Obeys config underway (s :: later) (drained.after [event]) := by
  obtain ⟨messages, are, told⟩ := obeys.told
  refine ⟨List.forall_mem_cons.mpr ⟨admissible, obeys.admissible⟩, ⟨messages, ?_, ?_⟩,
    obeys.nothingLeft⟩
  · rwa [dataFrames_cons_control control]
  · exact .control tells told

theorem Obeys.part (admissible : Admissible config s.1 s.2) (data : s.1.opcode.isControl = false)
    (notFinal : s.1.fin = false) (obeys : Obeys config (underway ++ [s.1]) later drained) :
    Obeys config underway (s :: later) drained := by
  obtain ⟨messages, are, told⟩ := obeys.told
  refine ⟨List.forall_mem_cons.mpr ⟨admissible, obeys.admissible⟩, ⟨messages, ?_, ?_⟩,
    obeys.nothingLeft⟩
  · rw [dataFrames_cons_data data]
    simpa using are
  · exact .part data notFinal told

theorem Obeys.message (admissible : Admissible config s.1 s.2)
    (data : s.1.opcode.isControl = false) (final : s.1.fin = true)
    (notFinal : ∀ frame ∈ underway, frame.fin = false) {message : Message}
    (fragments : Fragments config.limits message.kind (underway ++ [s.1]))
    (carried : message.payload = content (underway ++ [s.1]))
    (obeys : Obeys config [] later drained) :
    Obeys config underway (s :: later) (drained.after [.message message]) := by
  obtain ⟨messages, are, told⟩ := obeys.told
  refine ⟨List.forall_mem_cons.mpr ⟨admissible, obeys.admissible⟩, ⟨message :: messages, ?_, ?_⟩,
    obeys.nothingLeft⟩
  · rw [dataFrames_cons_data data]
    exact .finished fragments notFinal final carried are
  · exact .message data final told

theorem drain_wire_behind (config : Config) (stream : List (Frame × Option MaskKey))
    (bounded : ∀ s ∈ stream, s.1.payload.length < 2 ^ 63) (frames : List Frame)
    (underway : Underway config.limits frames) (notFinal : ∀ frame ∈ frames, frame.fin = false) :
    let drained := (holding config frames (wire stream)).drain
    (drained.fault = none → Obeys config frames stream drained) ∧
      ((∀ s ∈ stream, Admissible config s.1 s.2) →
        (∃ messages, Messages config.limits (frames ++ dataFrames stream) messages) →
        drained.fault = none) := by
  intro drained
  induction stream generalizing frames with
  | nil =>
    have rest : drained = ⟨[], none, holding config frames []⟩ :=
      drain_of_none (nextEvent_of_none rfl)
    rw [rest]
    refine ⟨fun _ => ⟨by simp, ⟨[], ?_, .none⟩, rfl⟩, fun _ _ => rfl⟩
    rw [dataFrames, List.map_nil, List.filter_nil, List.append_nil]
    rcases underway with rfl | ⟨kind, fragments⟩
    · exact .none
    · exact .unfinished fragments notFinal
  | cons s later ih =>
    obtain ⟨short, bounded⟩ := List.forall_mem_cons.mp bounded
    have ih := ih bounded
    have whole : drained = (holding config frames (s.1.encode s.2 ++ wire later)).drain := by
      rw [← wire_cons]
    by_cases admissible : Admissible config s.1 s.2
    swap
    · obtain ⟨e, failed⟩ := drain_of_inadmissible frames (wire later) short admissible
      rw [whole, failed]
      exact ⟨nofun, fun all => absurd (all s List.mem_cons_self) admissible⟩
    cases control : s.1.opcode.isControl with
    | true =>
      obtain ⟨event, tells, step⟩ := drain_of_control frames (wire later) short admissible
        control
      obtain ⟨sound, complete⟩ := ih frames underway notFinal
      rw [whole, step]
      refine ⟨fun passed => (sound passed).control admissible control tells, ?_⟩
      rintro all ⟨messages, are⟩
      rw [dataFrames_cons_control control] at are
      exact complete (fun t isIn => all t (List.mem_cons_of_mem _ isIn)) ⟨messages, are⟩
    | false =>
      rw [dataFrames_cons_data control, whole]
      rcases drain_of_data frames (wire later) short admissible control underway notFinal with
        ⟨failed, stranger⟩ | ⟨part, ⟨kind, fragments⟩, step⟩ |
        ⟨final, message, fragments, carried, step⟩
      · refine ⟨fun passed => ?_, fun _ ⟨messages, are⟩ => absurd are (stranger _ messages)⟩
        rw [passed] at failed
        cases failed
      · have stillNotFinal : ∀ frame ∈ frames ++ [s.1], frame.fin = false := by
          intro frame isIn
          rcases List.mem_append.mp isIn with isEarlier | isLast
          · exact notFinal frame isEarlier
          · rw [List.mem_singleton.mp isLast, part]
        obtain ⟨sound, complete⟩ := ih (frames ++ [s.1]) (.inr ⟨kind, fragments⟩) stillNotFinal
        rw [step]
        refine ⟨fun passed => (sound passed).part admissible control part, ?_⟩
        rintro all ⟨messages, are⟩
        exact complete (fun t isIn => all t (List.mem_cons_of_mem _ isIn))
          ⟨messages, by simpa using are⟩
      · obtain ⟨sound, complete⟩ := ih [] (.inl rfl) (by simp)
        rw [step]
        refine ⟨fun passed =>
          (sound passed).message admissible control final notFinal fragments carried, ?_⟩
        rintro all ⟨messages, are⟩
        obtain ⟨-, rest, -, -, -, are⟩ := (are.split notFinal).2 final
        exact complete (fun t isIn => all t (List.mem_cons_of_mem _ isIn)) ⟨rest, are⟩

/-- Frames that are written one after another are read without a failure just if each is
admissible and the data frames are messages one after another. Then the events are what the frames
tell, in order, and no byte is left. -/
theorem drain_wire (config : Config) (stream : List (Frame × Option MaskKey))
    (bounded : ∀ s ∈ stream, s.1.payload.length < 2 ^ 63) :
    let drained := ((ofConfig config).feed (wire stream)).drain
    (drained.fault = none ↔
        (∀ s ∈ stream, Admissible config s.1 s.2) ∧
          ∃ messages, Messages config.limits (dataFrames stream) messages) ∧
      (drained.fault = none →
        ∃ messages, Messages config.limits (dataFrames stream) messages ∧
          Told (stream.map Prod.fst) messages drained.events ∧ drained.decoder.buffer = []) := by
  intro drained
  obtain ⟨sound, complete⟩ := drain_wire_behind config stream bounded [] (.inl rfl) (by simp)
  refine ⟨⟨fun passed => ?_, fun ⟨admissible, are⟩ => complete admissible are⟩, fun passed => ?_⟩
  · obtain ⟨messages, are, -⟩ := (sound passed).told
    exact ⟨(sound passed).admissible, messages, are⟩
  · obtain ⟨messages, are, told⟩ := (sound passed).told
    exact ⟨messages, are, told, (sound passed).nothingLeft⟩

/-- A character cut in two by a ping, then a close and the beginning of another message. -/
theorem drain_wire_cut_character :
    let config : Config := { acceptMasked := true }
    let first : Frame := { fin := false, opcode := .text, payload := [0xC3] }
    let last : Frame := { opcode := .continuation, payload := [0xA9] }
    let another : Frame := { fin := false, opcode := .binary, payload := [1] }
    let stream : List (Frame × Option MaskKey) :=
      [(first, none), (.ping [7], none), (last, some ⟨1, 2, 3, 4⟩),
        (.close (some 1000) [], none), (another, none)]
    let drained := ((ofConfig config).feed (wire stream)).drain
    (∀ s ∈ stream, s.1.payload.length < 2 ^ 63) ∧
      Messages config.limits (dataFrames stream) [.text "é"] ∧ drained.fault = none ∧
      ∃ messages, Messages config.limits (dataFrames stream) messages ∧
        Told (stream.map Prod.fst) messages drained.events ∧ drained.decoder.buffer = [] := by
  intro config first last another stream drained
  have bounded : ∀ s ∈ stream, s.1.payload.length < 2 ^ 63 := by decide
  have fragments : Fragments config.limits .text ([first] ++ [last]) :=
    ⟨rfl, by decide, by decide, by decide⟩
  have begun : Fragments config.limits .binary [another] :=
    ⟨rfl, by decide, by decide, by decide⟩
  have carried : (Message.text "é").payload = content ([first] ++ [last]) := by decide
  have later : Messages config.limits [another] [] := .unfinished begun (by simp [another])
  have are : Messages config.limits (dataFrames stream) [.text "é"] :=
    .finished fragments (by simp [first]) rfl carried later
  have admissible : ∀ s ∈ stream, Admissible config s.1 s.2 := by
    simp only [stream, List.forall_mem_cons]
    refine ⟨⟨.inl rfl, by decide, by decide, by decide, nofun⟩,
      ⟨.inl rfl, by decide, by decide, by decide, nofun⟩,
      ⟨.inr rfl, by decide, by decide, by decide, nofun⟩,
      ⟨.inl rfl, by decide, by decide, by decide, fun _ => ⟨_, rfl⟩⟩,
      ⟨.inl rfl, by decide, by decide, by decide, nofun⟩, nofun⟩
  obtain ⟨accepts, tells⟩ := drain_wire config stream bounded
  have passed : drained.fault = none := accepts.mpr ⟨admissible, _, are⟩
  exact ⟨bounded, are, passed, tells passed⟩

end Decoder

end WebSocket
