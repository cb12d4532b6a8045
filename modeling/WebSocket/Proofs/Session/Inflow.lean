import WebSocket.Proofs.Session.Handshake
import WebSocket.Proofs.Session.Reading

/-!
# The messages that arrive

The bytes that arrive in an attempt until its transport is down complete some messages, and those of
all attempts together are what a client has to hand over (`decoded`). What a delivery reads is just
what it adds to them (`Current.delivery`).
-/

namespace WebSocket

/-- The bytes that arrived in each attempt while it lasted, latest attempt first. -/
def inflow : List Moment → List Bytes
  | [] => []
  | .called (.bytesArrived data) :: h =>
    if phaseAfter h = .closed then inflow h else (inflow h).modifyHead (· ++ data)
  | moment :: h => if moment.signal? = some .begun then [] :: inflow h else inflow h

/-- The messages that the bytes of a connection complete before reading ends. -/
def completed (config : Config) (bytes : Bytes) : List Message :=
  ((Decoder.ofConfig config).feed bytes).drain.heard.filterMap Event.message?

/-- The messages that the attempts completed, in the order in which their bytes arrived. -/
def decoded (config : Config) (h : List Moment) : List Message :=
  (inflow h).reverse.flatMap (completed config)

/-! ### Bytes of one attempt -/

theorem completed_flatten (config : Config) (deliveries : List Bytes) :
    completed config deliveries.flatten =
      ((Decoder.ofConfig config).drainEach deliveries).heard.filterMap Event.message? := by
  obtain ⟨events, -, -⟩ := Decoder.drainEach_ofConfig config deliveries
  rw [completed, Decoder.Drained.heard, Decoder.Drained.heard, events]

/-- A close at the end is no message. -/
theorem Decoder.Drained.messages_reading (drained : Decoder.Drained) :
    drained.reading.1.filterMap Event.message? = drained.heard.filterMap Event.message? := by
  unfold reading
  cases drained.ending? with
  | none => rfl
  | some ending =>
    cases ending with
    | close body => simp [Event.message?]
    | fault e => rfl

theorem decoded_cons {config : Config} {h h' : List Moment} {bytes : Bytes}
    {earlier : List Bytes} (before : inflow h = bytes :: earlier) {more : Bytes}
    (after : inflow h' = more :: earlier) {added : List Message}
    (adds : completed config more = completed config bytes ++ added) :
    decoded config h' = decoded config h ++ added := by
  simp only [decoded, before, after, List.reverse_cons, List.flatMap_append, List.flatMap_cons,
    List.flatMap_nil, List.append_nil, adds, List.append_assoc]

theorem decoded_of_same {h h' : List Moment} (same : inflow h' = inflow h) (config : Config) :
    decoded config h' = decoded config h := by
  rw [decoded, same, decoded]

/-! ### What a client knows of the attempt under way -/

/-- What a client has read is what arrived in the attempt under way. -/
structure Current (config : Config) (c : Client) (h : List Moment) : Prop where
  reads : Reads config c h
  phase : phaseAfter h = c.phase
  inflow : c.phase ≠ .closed → ∃ earlier, inflow h = (delivered h).flatten :: earlier

theorem inflow_changed (c c' : Client) (h : List Moment) :
    inflow (.changed c c' :: h) =
      if Phase.signal? c.phase c'.phase = some .begun then [] :: inflow h else inflow h := rfl

variable {config : Config} {c c' : Client} {h : List Moment}

theorem Current.of_same {h' : List Moment} (current : Current config c h)
    (same : delivered h' = delivered h) (phase : phaseAfter h' = phaseAfter h)
    (sameInflow : WebSocket.inflow h' = WebSocket.inflow h) : Current config c h' := by
  refine ⟨current.reads.of_same same, phase.trans current.phase, fun active => ?_⟩
  rw [sameInflow, same]
  exact current.inflow active

/-- Neither a change nor a delivery. -/
def Moment.isIdle : Moment → Bool
  | changed .. => false
  | called call => !call.isDelivery
  | asked _ | answered .. | returned _ => true

theorem Moment.passes_of_isIdle {moment : Moment} (idle : moment.isIdle) (h : List Moment) :
    delivered (moment :: h) = delivered h ∧ phaseAfter (moment :: h) = phaseAfter h ∧
      inflow (moment :: h) = inflow h := by
  cases moment with
  | changed before after => cases idle
  | called call => cases call <;> first | exact ⟨rfl, rfl, rfl⟩ | cases idle
  | asked request => cases request <;> exact ⟨rfl, rfl, rfl⟩
  | answered request answer => exact ⟨rfl, rfl, rfl⟩
  | returned reply => exact ⟨rfl, rfl, rfl⟩

theorem decoded_idle {moment : Moment} (idle : moment.isIdle) (h : List Moment) :
    decoded config (moment :: h) = decoded config h :=
  decoded_of_same (Moment.passes_of_isIdle idle h).2.2 config

theorem Current.idle (current : Current config c h) {moment : Moment} (idle : moment.isIdle) :
    Current config c (moment :: h) := by
  obtain ⟨same, phase, sameInflow⟩ := Moment.passes_of_isIdle idle h
  exact current.of_same same phase sameInflow

theorem Current.change (current : Current config c h) (change : Change c c') :
    Current config c' (.changed c c' :: h) ∧
      decoded config (.changed c c' :: h) = decoded config h := by
  have reads := current.reads.change change
  by_cases begun : Phase.signal? c.phase c'.phase = some .begun
  · have fresh : WebSocket.inflow (.changed c c' :: h) = [] :: WebSocket.inflow h := if_pos begun
    have nothing : delivered (.changed c c' :: h) = [] := if_pos begun
    refine ⟨⟨reads, rfl, fun _ => ⟨_, by rw [fresh, nothing]; rfl⟩⟩, ?_⟩
    have empty : completed config [] = [] := completed_flatten config []
    simp only [decoded, fresh, List.reverse_cons, List.flatMap_append, List.flatMap_cons,
      List.flatMap_nil, empty, List.append_nil]
  · have same : WebSocket.inflow (.changed c c' :: h) = WebSocket.inflow h := if_neg begun
    have continues : delivered (.changed c c' :: h) = delivered h := if_neg begun
    refine ⟨⟨reads, rfl, fun active => ?_⟩, decoded_of_same same config⟩
    rw [same, continues]
    refine current.inflow fun closed => ?_
    -- A client that is not closed any more has begun an attempt.
    cases change.rereads with
    | begins _ connecting _ _ => exact begun (by rw [closed, connecting]; rfl)
    | down down => exact active down
    | same wasActive _ _ => exact wasActive closed

/-- A delivery reads just what it adds to what the attempts complete. -/
theorem Current.delivery (current : Current config c h) (data : Bytes) :
    let h' := .changed c (c.absorb data).2 :: .called (.bytesArrived data) :: h
    Current config (c.absorb data).2 h' ∧
      decoded config h' =
        decoded config h ++ (c.absorb data).1.1.filterMap Event.message? := by
  intro h'
  have reads := current.reads.delivery data
  have unchanged : (c.absorb data).2.phase = c.phase := c.absorb_phase data
  have more : delivered h' = delivered h ++ [data] := delivered_delivery unchanged data h
  have called : WebSocket.inflow h' = WebSocket.inflow (.called (.bytesArrived data) :: h) := by
    rw [inflow_changed, unchanged, Phase.signal?_self, if_neg nofun]
  rcases Decidable.em (c.phase = .closed) with closed | active
  · have same : WebSocket.inflow h' = WebSocket.inflow h :=
      called.trans (if_pos (current.phase.trans closed))
    refine ⟨⟨reads, rfl, fun active => absurd (unchanged.trans closed) active⟩, ?_⟩
    rw [decoded_of_same same, Client.absorb_idle (.inl closed)]
    exact (List.append_nil _).symm
  · obtain ⟨earlier, before⟩ := current.inflow active
    have after : WebSocket.inflow h' = (delivered h').flatten :: earlier := by
      rw [called, WebSocket.inflow, current.phase, if_neg active, before, more,
        List.modifyHead_cons, List.flatten_concat]
    refine ⟨⟨reads, rfl, fun _ => ⟨earlier, after⟩⟩, decoded_cons before after ?_⟩
    rw [completed_flatten, completed_flatten]
    cases halted : c.halted with
    | true =>
      -- Reading has ended, so more bytes complete nothing.
      obtain ⟨heard, -⟩ :=
        Decoder.drainEach_append_of_ending (current.reads.ended active halted) [data]
      rw [more, heard, Client.absorb_idle (.inr halted)]
      exact (List.append_nil _).symm
    | false =>
      obtain ⟨-, quiet, heardBefore⟩ := Decoder.Drained.sound_of_no_ending
        (current.reads.decoder active halted).goesOn
      have heard := (Decoder.Drained.after_quiet quiet (c.decoder.feed data).drain).1
      rw [← readSoFar_delivery current.reads active halted data] at heard
      have read := (c.decoder.feed data).drain.messages_reading
      rw [← Decoder.drainToClose_eq] at read
      show (readSoFar config h').heard.filterMap Event.message? =
        (readSoFar config h).heard.filterMap Event.message? ++ _
      rw [heard, heardBefore, List.filterMap_append, Client.absorb_active active halted, ← read]

end WebSocket
