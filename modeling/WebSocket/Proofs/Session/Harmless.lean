import WebSocket.Proofs.Session.Course
import WebSocket.Proofs.Session.Signals

/-!
# Actions that leave the connection alone

A client acts on its connection when it changes the negotiation or asks the transport for something
(`Moment.Acts`). What a delivery has left to do may be harmless in this respect, and
`harmless_actOn_iff` says when it is: no close and no error is left, and no ping that is answered.
-/

namespace WebSocket

open WebSocket.Action

/-- The transport is asked, not a listener or a receiver. -/
def Request.isOfTransport : Request → Bool
  | notify .. | deliver .. => false
  | connect | connectAsync | disconnect | disconnectAsync | send _ | sendWithin .. | sendAsync _ =>
    true

/-- The client acts on the connection. -/
def Moment.Acts : Moment → Prop
  | changed before after => after.negotiation ≠ before.negotiation
  | asked request => request.isOfTransport
  | called _ | answered .. | returned _ => False

structure Idle (c c' : Client) : Prop where
  negotiation : c'.negotiation = c.negotiation
  settings : c'.config = c.config

/-- Whatever is answered and whatever others do, an action does not act on the connection. -/
abbrev Action.Harmless {α : Type} (config : Config) (x : Action α) : Prop :=
  x.Every (fun c => c.config = config) Idle fun r => r.isOfTransport = false

def Halt.Harmless (config : Config) (halt : Halt) : Prop :=
  halt.Every (fun c => c.config = config) Idle fun r => r.isOfTransport = false

/-! ### What is harmless -/

/-- Nothing is done to the connection about an event. A ping is answered if `autoPong` is set. -/
def Event.isHarmless (autoPong : Bool) : Event → Bool
  | message _ | pong _ => true
  | ping _ => !autoPong
  | close _ => false

section Harmless

variable {config : Config}

theorem harmless_notify (notice : Notice) : (Client.notify notice).Harmless config :=
  every_notify (fun _ _ => ⟨rfl, rfl⟩) fun _ => rfl

theorem harmless_dispatch {event : Event} (harmless : event.isHarmless config.autoPong) :
    (Client.dispatch event).Harmless config := by
  cases event with
  | message message =>
    exact Client.every_handOver (fun _ _ => ⟨rfl, rfl⟩) (fun _ => rfl) fun _ _ => ⟨rfl, rfl⟩
  | ping payload =>
    apply every_get_bind (fun _ _ => ⟨rfl, rfl⟩)
    intro c settings
    have silent : ¬c.config.autoPong = true := by
      simpa [settings, Event.isHarmless] using harmless
    rw [if_neg silent]
    exact harmless_notify _
  | pong payload => exact harmless_notify _
  | close body => cases harmless

theorem harmless_dispatchAll {events : List Event}
    (harmless : ∀ event ∈ events, event.isHarmless config.autoPong) :
    (Client.dispatchAll events).Harmless config := by
  induction events with
  | nil => exact every_pure ()
  | cons event later ih =>
    apply every_bind (harmless_dispatch (harmless event List.mem_cons_self))
    intro _
    exact ih fun other isIn => harmless other (List.mem_cons_of_mem _ isIn)

def openedClient (config : Config) : Client :=
  { Client.ofConfig config 0 with negotiation := { phase := .opened } }

theorem not_harmless_protocolFault (e : Error) : ¬(Client.protocolFault e).Harmless config := by
  intro harmless
  unfold Client.protocolFault at harmless
  obtain ⟨_, decides⟩ := every_later harmless ⟨openedClient config, rfl⟩
  have idle := (every_first decides (openedClient config) rfl).1
  cases congrArg Negotiation.phase idle.negotiation

theorem not_harmless_remoteClose (body : Option CloseBody) :
    ¬(Client.remoteClose body).Harmless config := by
  intro harmless
  unfold Client.remoteClose at harmless
  obtain ⟨_, decides⟩ := every_later harmless ⟨openedClient config, rfl⟩
  have idle := (every_first decides (openedClient config) rfl).1
  cases congrArg Negotiation.phase idle.negotiation

theorem not_harmless_ping (payload : Bytes) (autoPong : config.autoPong = true) :
    ¬(Client.dispatch (.ping payload)).Harmless config := by
  intro harmless
  unfold Client.dispatch at harmless
  have answers := (harmless (openedClient config) rfl).2
  change Every _ _ _ (if config.autoPong = true then _ else _) at answers
  rw [if_pos autoPong] at answers
  have sends : (Client.sendAsync (.pong payload)).Harmless config :=
    every_first (every_first answers)
  unfold Client.sendAsync Client.transmitAsync Client.throughGate at sends
  have enters := (every_later sends ⟨openedClient config, rfl⟩).choose_spec
  have leaves := every_after_step enters (openedClient config) rfl
  obtain ⟨key, masks, entered⟩ := @Client.enterGate_granted Client.checkOpen
    (openedClient config) rfl (Outgoing.pong payload).parcel
  rw [entered] at leaves
  cases leaves.1

theorem harmless_actOn_iff {events : List Event} {fault : Option Error} :
    (Client.actOn (events, fault)).Harmless config ↔
      fault = none ∧ ∀ event ∈ events, event.isHarmless config.autoPong := by
  have possible : ∃ c : Client, c.config = config := ⟨openedClient config, rfl⟩
  constructor
  · intro harmless
    unfold Client.actOn at harmless
    refine ⟨?_, ?_⟩
    · obtain ⟨_, ends⟩ := every_later harmless possible
      cases fault with
      | none => rfl
      | some e => exact absurd ends (not_harmless_protocolFault e)
    · have acts := every_first harmless
      clear harmless
      simp only at acts
      induction events with
      | nil => simp
      | cons event later ih =>
        unfold Client.dispatchAll at acts
        obtain ⟨_, rest⟩ := every_later acts possible
        have first := every_first acts
        intro other isIn
        rcases List.mem_cons.mp isIn with rfl | isLater
        · cases other with
          | message message => rfl
          | pong payload => rfl
          | close body => exact absurd first (not_harmless_remoteClose body)
          | ping payload =>
            cases autoPong : config.autoPong with
            | false => rfl
            | true => exact absurd first (not_harmless_ping payload autoPong)
        · exact ih rest other isLater
  · rintro ⟨rfl, harmless⟩
    exact every_bind (harmless_dispatchAll harmless) fun _ => every_pure ()

end Harmless

end WebSocket
