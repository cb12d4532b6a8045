import WebSocket.Proofs.Session.Course
import WebSocket.Proofs.Session.Underway

/-!
# A client at rest

While no call is under way, the gate is free and a client that is connecting or open reads what
arrives (`atRest_of_reachable`). A delivery that ends reading leaves neither phase before it
returns, and who takes the gate leaves it.
-/

namespace WebSocket

open WebSocket.Action

variable {α : Type}

/-- While a client connects or is open, what arrives counts. -/
def Client.Attentive (c : Client) : Prop :=
  c.phase = .connecting ∨ c.phase = .opened → c.halted = false

structure AtRest (c : Client) : Prop where
  free : c.gate.isHeld = false
  attentive : c.Attentive

/-- What a call leaves as it was. -/
structure Restores (c : Client) (h : List Moment) (c' : Client) (h' : List Moment) : Prop where
  callers : underWay h' = underWay h
  held : c'.gate.isHeld = c.gate.isHeld
  attentive : c.Attentive → c'.Attentive

theorem Restores.refl (c : Client) (h : List Moment) : Restores c h c h := ⟨rfl, rfl, id⟩

theorem Restores.trans {c₁ c₂ c₃ : Client} {h₁ h₂ h₃ : List Moment}
    (first : Restores c₁ h₁ c₂ h₂) (later : Restores c₂ h₂ c₃ h₃) : Restores c₁ h₁ c₃ h₃ :=
  ⟨later.callers.trans first.callers, later.held.trans first.held,
    later.attentive ∘ first.attentive⟩

theorem Restores.busy {c c' : Client} {h h' : List Moment} (kept : Restores c h c' h')
    (busy : underWay h ≠ []) : underWay h' ≠ [] := by
  rw [kept.callers]
  exact busy

def resting : Duty where
  holds c h := underWay h = [] → AtRest c
  keeps := Restores
  refl := Restores.refl
  trans := Restores.trans

/-- What a call owes while it is under way itself. -/
def restoring : Duty where
  holds _ h := underWay h ≠ []
  keeps := Restores
  refl := Restores.refl
  trans := Restores.trans

theorem Action.Assures.resting {x : Action α} {ends : α → Client → List Moment → Prop} {c : Client}
    {h : List Moment} (assured : x.Assures restoring ends c h) : x.Assures resting ends c h := by
  induction x generalizing c h with
  | done value => exact assured
  | access change next ih => exact ih c assured
  | ask request next ih =>
    obtain ⟨busy, later⟩ := assured
    refine ⟨fun idle => absurd idle busy, fun answer c' h' _ kept => ?_⟩
    exact ih answer (later answer c' h' (kept.busy busy) kept)
  | wait limit ready next ih =>
    unfold Assures at assured ⊢
    split
    · rw [if_pos ‹_›] at assured
      exact ih assured
    · rw [if_neg ‹_›] at assured
      obtain ⟨busy, later⟩ := assured
      refine ⟨fun idle => absurd idle busy, fun c' h' _ kept ended => ?_⟩
      exact ih (later c' h' (kept.busy busy) kept ended)

/-! ### Strokes -/

/-- Neither connecting nor open. -/
def Client.Leaving (c : Client) : Prop := c.phase ≠ .connecting ∧ c.phase ≠ .opened

theorem Client.Leaving.attentive {c : Client} (leaving : c.Leaving) : c.Attentive :=
  fun phase => absurd phase (not_or.mpr leaving)

/-- Where a client connects or is open after a stroke, an attempt begins and what arrives counts, or
the stroke leaves this as it was. -/
inductive Attends (c c' : Client) : Prop
  | leaving (leaving : c'.Leaving)
  | begins (reads : c'.halted = false)
  | same (before : c.phase = .connecting ∨ c.phase = .opened) (halted : c'.halted = c.halted)

theorem Attends.attentive {c c' : Client} (attends : Attends c c') (attentive : c.Attentive) :
    c'.Attentive := by
  cases attends with
  | leaving leaving => exact leaving.attentive
  | begins reads => exact fun _ => reads
  | same before halted => exact fun _ => halted.trans (attentive before)

theorem Stroke.attends {c c' : Client} (stroke : Stroke c c') : Attends c c' := by
  obtain ⟨config, ⟨phase, sent, received⟩, key, awaited, announced, rejected, response, decoder,
    halted, mailbox, gate, listener, receiver⟩ := c
  obtain ⟨stroke, -⟩ := stroke
  cases stroke with
  | beginConnect key awaited =>
    cases phase <;> first
      | exact .begins rfl
      | exact .same (.inl rfl) rfl
      | exact .same (.inr rfl) rfl
      | exact .leaving ⟨nofun, nofun⟩
  | completeHandshake =>
    cases rejected <;> cases phase <;> first
      | exact .same (.inl rfl) rfl
      | exact .same (.inr rfl) rfl
      | exact .leaving ⟨nofun, nofun⟩
  | judgeResponse response =>
    unfold Client.judgeResponse
    cases phase <;> repeat' (first
      | exact .same (.inl rfl) rfl
      | exact .same (.inr rfl) rfl
      | split
      | exact .leaving ⟨nofun, nofun⟩)
  | beginClose code =>
    unfold Client.beginClose
    cases phase <;> split <;> first
      | exact .same (.inl rfl) rfl
      | exact .same (.inr rfl) rfl
      | exact .leaving ⟨nofun, nofun⟩
  | _ =>
    cases phase <;> first
      | exact .same (.inl rfl) rfl
      | exact .same (.inr rfl) rfl
      | exact .leaving ⟨nofun, nofun⟩

theorem Stroke.restores {c c' : Client} (stroke : Stroke c c') (h : List Moment) :
    Restores c h c' (.changed c c' :: h) :=
  ⟨rfl, congrArg Gate.isHeld stroke.untouched.gate, stroke.attends.attentive⟩

/-! ### Calls that read nothing -/

theorem tolerates_restoring : Tolerates restoring Stroke fun _ => True := by
  refine ⟨?_, ?_, ?_⟩
  · exact fun busy stroke => ⟨busy, stroke.restores _⟩
  · exact fun busy _ => ⟨busy, rfl, rfl, id⟩
  · exact fun _ busy _ => ⟨busy, rfl, rfl, id⟩

theorem Client.restores_notify (notice : Notice) :
    (notify notice).Does restoring restoring.holds :=
  does_of_every tolerates_restoring (every_notify (fun _ _ => .of .look rfl) fun _ => trivial)

theorem does_throughGate_restoring {consent : Client → Except Error Unit} {parcel : Parcel}
    {transmit : Bytes → Action α} (handsOver : HandsOver transmit) :
    (Client.throughGate consent parcel transmit).Does restoring restoring.holds := by
  intro c h busy
  refine assures_throughGate handsOver ?_ (fun _ _ => ⟨busy, rfl, rfl, id⟩) ?_
  · exact fun held => ⟨busy, fun _ _ kept => kept.held.trans held⟩
  · intro free _ r key masks frame c₁
    refine ⟨busy, fun answer c' h' busy' kept _ => ⟨busy', kept.callers, free.symm, ?_⟩⟩
    exact fun attentive => kept.attentive attentive

theorem suits_restoring (sends : Parcel → Prop) :
    restoring.Suits Stroke (fun r => r.frame? = none) sends := by
  refine ⟨⟨tolerates_restoring.changed, fun busy _ => tolerates_restoring.asked busy trivial,
    fun answer busy _ => tolerates_restoring.answered answer busy trivial⟩,
    fun _ => does_throughGate_restoring, fun strokes _ => ?_⟩
  refine does_bind (Client.restores_notify _) fun _ => ?_
  exact does_of_every tolerates_restoring (every_step fun c _ => strokes c)

theorem Action.Regular.restores {sends : Parcel → Prop} {x : Action α}
    (regular : x.Regular sends) : x.Does restoring restoring.holds :=
  regular.does (suits_restoring sends)

/-! ### Deliveries -/

/-- An action after which what arrives counts while the client connects or is open, whatever it was
before. -/
def Action.Settles (x : Action α) : Prop :=
  ∀ c h, underWay h ≠ [] →
    x.Assures restoring (fun _ c' h' => Restores c h c' h' ∧ c'.Attentive) c h

theorem Action.settles_first {β : Type} {x : Action α} {k : α → Action β} (first : x.Settles)
    (later : ∀ v, (k v).Does restoring restoring.holds) : (x >>= k).Settles := by
  intro c h busy
  refine assures_bind.mpr ((first c h busy).mono fun v c' h' ⟨kept, attentive⟩ => ?_)
  refine (later v c' h' (kept.busy busy)).mono fun _ c'' h'' ⟨_, kept'⟩ => ?_
  exact ⟨kept.trans kept', kept'.attentive attentive⟩

theorem Action.settles_later {β : Type} {x : Action α} {k : α → Action β}
    (first : x.Does restoring restoring.holds) (later : ∀ v, (k v).Settles) :
    (x >>= k).Settles := by
  intro c h busy
  refine assures_bind.mpr ((first c h busy).mono fun v c' h' ⟨busy', kept⟩ => ?_)
  refine (later v c' h' busy').mono fun _ c'' h'' ⟨kept', attentive⟩ => ?_
  exact ⟨kept.trans kept', attentive⟩

theorem Action.settles_step {f : Client → α × Client} (strokes : ∀ c, Stroke c (f c).2)
    (leaving : ∀ c, (f c).2.Leaving) : (step f).Settles := fun c h _ =>
  ⟨(strokes c).restores h, (leaving c).attentive⟩

namespace Client

theorem leaving_closeRemotely (body : Option CloseBody) (c : Client) :
    (c.closeRemotely body).2.Leaving := by
  obtain ⟨config, ⟨phase, sent, received⟩, rest⟩ := c
  cases phase <;> exact ⟨nofun, nofun⟩

theorem leaving_closeLocally (status : UInt16) (c : Client) :
    (c.closeLocally status).2.Leaving := by
  obtain ⟨config, ⟨phase, sent, received⟩, rest⟩ := c
  cases phase <;> exact ⟨nofun, nofun⟩

theorem restores_acts {x : Action α} (acts : x.Acts fun _ => True) :
    x.Does restoring restoring.holds := acts.routinely.regular.restores

theorem settles_remoteClose (body : Option CloseBody) : (remoteClose body).Settles := by
  have down : (discard (request .disconnectAsync)).Acts fun _ => True :=
    composed_discard (composed_request rfl)
  apply settles_later (restores_notify _)
  intro _
  apply settles_first (settles_step (fun _ => .of (.closeRemotely body) rfl)
    (leaving_closeRemotely body))
  intro reaction
  split
  · exact restores_acts (composed_bind (composed_announceClose trivial) fun _ => down)
  · exact restores_acts down
  · exact does_pure ()

theorem settles_protocolFault (e : Error) : (protocolFault e).Settles := by
  have down : (discard (request .disconnectAsync)).Acts fun _ => True :=
    composed_discard (composed_request rfl)
  apply settles_later (restores_notify _)
  intro _
  apply settles_first (settles_step (fun _ => .of (.closeLocally e.closeStatus) rfl)
    (leaving_closeLocally e.closeStatus))
  intro mustSend
  split
  · exact restores_acts (composed_bind (composed_announceClose trivial) fun _ => down)
  · exact restores_acts down

theorem restores_dispatchAll (events : List Event) :
    (dispatchAll events).Does restoring restoring.holds :=
  restores_acts (acts_dispatchAll fun _ _ _ _ => trivial)

theorem settles_dispatchAll {events : List Event} (close : events.any Event.isClose = true) :
    (dispatchAll events).Settles := by
  induction events with
  | nil => cases close
  | cons event later ih =>
    cases event with
    | close body =>
      exact settles_first (settles_remoteClose body) fun _ => restores_dispatchAll later
    | message _ | ping _ | pong _ =>
      refine settles_later (restores_acts ?_) fun _ => ih close
      exact acts_dispatch fun _ _ => trivial

/-- Acting on a close or on an error makes up for what is not read any more. -/
theorem settles_actOn {read : List Event × Option Error}
    (last : (read.2.isSome || read.1.any Event.isClose) = true) : (actOn read).Settles := by
  obtain ⟨events, fault⟩ := read
  cases fault with
  | some e => exact settles_later (restores_dispatchAll events) fun _ => settles_protocolFault e
  | none => exact settles_first (settles_dispatchAll last) fun _ => does_pure ()

theorem attentive_absorb {c : Client} {data : Bytes} (attentive : c.Attentive)
    (goesOn : ((c.absorb data).1.2.isSome || (c.absorb data).1.1.any Event.isClose) = false) :
    (c.absorb data).2.Attentive := by
  by_cases idle : c.phase = .closed ∨ c.halted = true
  · rw [absorb_idle idle]
    exact attentive
  obtain ⟨active, listening⟩ := not_or.mp idle
  rw [absorb_active active (Bool.not_eq_true _ ▸ listening)] at goesOn ⊢
  exact fun _ => goesOn

theorem restores_bytesArrived (data : Bytes) :
    (bytesArrived data).Does restoring restoring.holds := by
  intro c h busy
  refine assures_bind.mpr (assures_step.mpr ?_)
  have gate := congrArg Gate.isHeld (c.absorb_gate data)
  let h₁ := Moment.changed c (c.absorb data).2 :: h
  cases last : (c.absorb data).1.2.isSome || (c.absorb data).1.1.any Event.isClose with
  | true =>
    refine (settles_actOn last _ h₁ busy).mono fun _ c' h' ⟨kept, attentive⟩ => ?_
    exact ⟨kept.busy busy, kept.callers, kept.held.trans gate, fun _ => attentive⟩
  | false =>
    have acts : (actOn (c.absorb data).1).Acts fun _ => True :=
      acts_actOn (fun _ _ _ _ => trivial) fun _ _ => trivial
    refine (restores_acts acts _ h₁ busy).mono fun _ c' h' ⟨busy', kept⟩ => ?_
    exact ⟨busy', kept.callers, kept.held.trans gate,
      fun attentive => kept.attentive (attentive_absorb attentive last)⟩

end Client

/-! ### Sessions -/

theorem Call.restores (call : Call) : call.action.Does restoring restoring.holds := by
  cases delivery : call.isDelivery with
  | false => exact (Call.regular delivery).restores
  | true =>
    cases call with
    | bytesArrived data => exact does_map (Client.restores_bytesArrived data)
    | _ => cases delivery

theorem Call.assured_resting (call : Call) : call.Assured resting := by
  intro c h rests
  have does := call.restores c (.called call :: h) (List.cons_ne_nil _ _)
  refine does.resting.mono fun reply c' h' ⟨_, kept⟩ => ?_
  have callers : underWay (.returned reply :: h') = underWay h := congrArg List.tail kept.callers
  refine ⟨fun idle => ?_, callers, kept.held, kept.attentive⟩
  obtain ⟨free, attentive⟩ := rests (callers.symm.trans idle)
  exact ⟨kept.held.trans free, kept.attentive attentive⟩

/-- While no call is under way, the gate is free, and what arrives counts if the client is
connecting or open. -/
theorem Session.atRest_of_reachable {allowed : Session → Turn → Prop} {config : Config}
    {seed : UInt32} {s : Session} (reachable : ReachableBy allowed config seed s)
    (idle : s.callers = []) : AtRest s.client := by
  have start : resting.holds (.ofConfig config seed) [] := fun _ => ⟨rfl, nofun⟩
  refine (sound_of_assured Call.assured_resting start reachable).holds ?_
  rw [underWay_of_reachable reachable, idle, List.map_nil]

end WebSocket
