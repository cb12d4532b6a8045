import WebSocket.Proofs.Client.CloseStatus
import WebSocket.Proofs.Session.Harmless

/-!
# What is left of a delivery, on an open connection

Left alone with an open connection, a delivery that goes on with what it read asks the transport
for nothing exactly if what it read is harmless (`leavesTransport_actOn_iff`). So what counts as
harmless cannot be widened.
-/

namespace WebSocket

open WebSocket.Action

theorem opcode?_of_other {r : Request} (other : r.isOfTransport = false) : r.opcode? = none := by
  cases r with
  | notify listener notice => rfl
  | deliver receiver message => rfl
  | _ => cases other

/-- Nothing was asked of the transport between two moments. -/
def LeavesTransport (s s' : Watched) : Prop :=
  ∃ new, s'.around = new ++ s.around ∧ ∀ r ∈ new, r.isOfTransport = false

section Run

variable {α β : Type} {answer : (r : Request) → List Request → r.Answer} {s s' s'' : Watched}

theorem around_run (x : Action α) (s : Watched) :
    s.around <:+ (x.run (onlooker answer) s).2.around := by
  induction x generalizing s with
  | done value => exact List.suffix_refl _
  | access change next ih => exact ih s.client { s with client := change s.client }
  | ask request next ih =>
    exact (List.suffix_cons request s.around).trans
      (ih (answer request s.around) { s with around := request :: s.around })
  | wait limit ready next ih =>
    unfold run
    split
    · exact ih s
    · exact List.suffix_refl _

theorem idle_run {config : Config} {x : Action α} (harmless : x.Harmless config)
    (settings : s.client.config = config) :
    Idle s.client (x.run (onlooker answer) s).2.client ∧
      LeavesTransport s (x.run (onlooker answer) s).2 := by
  induction x generalizing s with
  | done value => exact ⟨⟨rfl, rfl⟩, [], rfl, by simp⟩
  | access change next ih =>
    obtain ⟨idle, rest⟩ := harmless s.client settings
    obtain ⟨later, left⟩ := @ih s.client { s with client := change s.client } rest
      (idle.settings.trans settings)
    exact ⟨⟨later.negotiation.trans idle.negotiation, later.settings.trans idle.settings⟩, left⟩
  | ask request next ih =>
    obtain ⟨other, rest⟩ := harmless
    obtain ⟨later, new, around, others⟩ := @ih (answer request s.around)
      { s with around := request :: s.around } (rest _) settings
    refine ⟨later, new ++ [request], ?_, ?_⟩
    · rw [List.append_assoc]
      exact around
    · intro r isIn
      rcases List.mem_append.mp isIn with isNew | isRequest
      · exact others r isNew
      · cases List.mem_singleton.mp isRequest
        exact other
  | wait limit ready next ih =>
    unfold run
    split
    · exact ih harmless settings
    · exact ⟨⟨rfl, rfl⟩, [], rfl, by simp⟩

/-- A run that asks the transport for nothing does so neither at first nor later. -/
theorem LeavesTransport.split (left : LeavesTransport s s'') (first : s.around <:+ s'.around)
    (later : s'.around <:+ s''.around) : LeavesTransport s s' ∧ LeavesTransport s' s'' := by
  obtain ⟨new, around⟩ := first
  obtain ⟨rest, around'⟩ := later
  obtain ⟨all, whole, others⟩ := left
  have same : all = rest ++ new := by
    rw [← around', ← around, ← List.append_assoc] at whole
    exact (List.append_cancel_right whole).symm
  rw [same] at others
  refine ⟨⟨new, around.symm, fun r isNew => ?_⟩, ⟨rest, around'.symm, fun r isLater => ?_⟩⟩
  · exact others r (List.mem_append_right rest isNew)
  · exact others r (List.mem_append_left new isLater)

theorem suffix_of_ends {x : Action α} {value : α} (ends : Ends (onlooker answer) x s value s') :
    s.around <:+ s'.around := by
  have grown := @around_run α answer x s
  rw [ends] at grown
  exact grown

end Run

namespace Client

variable {answer : (r : Request) → List Request → r.Answer} {s s' : Watched}

theorem not_leavesTransport_of_answered {status : UInt16} (answered : Answered status s s') :
    ¬LeavesTransport s s' := by
  rintro ⟨new, around, others⟩
  obtain ⟨key, close⟩ := answered.close
  have none : closesAmong new = [] := by
    refine List.filter_eq_nil_iff.mpr fun r isNew => ?_
    simp [opcode?_of_other (others r isNew)]
  rw [around, closesAmong, List.filter_append] at close
  change closesAmong new ++ closesAmong s.around = _ at close
  rw [none, List.nil_append] at close
  exact absurd close.symm (List.cons_ne_self _ _)

theorem ends_dispatch_harmful {event : Event}
    (harmful : event.isHarmless s.client.config.autoPong = false)
    (opened : s.client.phase = .opened) (free : s.client.gate.isHeld = false) :
    ∃ s', Ends (onlooker answer) (dispatch event) s () s' ∧ ¬LeavesTransport s s' := by
  cases event with
  | message message => cases harmful
  | pong payload => cases harmful
  | close body =>
    obtain ⟨s', ends, answered⟩ := @ends_remoteClose answer s body opened free
    exact ⟨s', ends, not_leavesTransport_of_answered answered⟩
  | ping payload =>
    have auto : s.client.config.autoPong = true := by simpa [Event.isHarmless] using harmful
    have granted : checkOpen s.client = .ok () := by simp [checkOpen, opened, Phase.canSend]
    obtain ⟨taken, key, masks, sent⟩ :=
      @ends_transmitAsync answer s _ (Outgoing.pong payload).parcel free granted
    obtain ⟨s', told, -⟩ := @ends_notify answer (.ping payload) _
    refine ⟨s', ends_bind (ends_get (s := s)) ?_, fun left => ?_⟩
    · rw [if_pos auto]
      exact ends_bind (ends_discard sent) told
    · obtain ⟨⟨new, around, others⟩, -⟩ :=
        left.split (List.suffix_cons _ _) (suffix_of_ends told)
      change [Request.sendAsync ((Outgoing.pong payload).parcel.encode key)] ++ s.around =
        new ++ s.around at around
      rw [← List.append_cancel_right around] at others
      cases others _ List.mem_cons_self

theorem actOn_cons (event : Event) (later : List Event) (fault : Option Error) :
    actOn (event :: later, fault) = dispatch event >>= fun _ => actOn (later, fault) :=
  bind_assoc (dispatch event) (fun _ => dispatchAll later) _

theorem harmless_of_leavesTransport {events : List Event} {fault : Option Error}
    (opened : s.client.phase = .opened) (free : s.client.gate.isHeld = false)
    (left : LeavesTransport s ((actOn (events, fault)).run (onlooker answer) s).2) :
    fault = none ∧ ∀ event ∈ events, event.isHarmless s.client.config.autoPong := by
  induction events generalizing s with
  | nil =>
    cases fault with
    | none => simp
    | some e =>
      obtain ⟨s', ends, answered⟩ := @ends_protocolFault answer s e opened free
      have last : (actOn ([], some e)).run (onlooker answer) s = _ :=
        run_bind_of_ends (ends_pure ()) _ |>.trans ends
      rw [last] at left
      exact absurd left (not_leavesTransport_of_answered answered)
  | cons event later ih =>
    rw [actOn_cons] at left
    cases harmless : event.isHarmless s.client.config.autoPong with
    | false =>
      obtain ⟨s₁, first, asks⟩ := @ends_dispatch_harmful answer s event harmless opened free
      rw [run_bind_of_ends first] at left
      exact absurd (left.split (suffix_of_ends first) (around_run _ _)).1 asks
    | true =>
      have quiet : event.isClose = false := by
        cases event with
        | close body => cases harmless
        | _ => rfl
      obtain ⟨s₁, first, same⟩ := @ends_dispatch answer s event quiet free
      obtain ⟨idle, -⟩ := @idle_run _ answer s _ _ (harmless_dispatch harmless) rfl
      rw [first] at idle
      rw [run_bind_of_ends first] at left
      obtain ⟨-, left⟩ := left.split (suffix_of_ends first) (around_run _ _)
      obtain ⟨sound, others⟩ := ih (same.phase.trans opened) (same.held.trans free) left
      rw [idle.settings] at others
      refine ⟨sound, fun other isIn => ?_⟩
      rcases List.mem_cons.mp isIn with rfl | isLater
      · exact harmless
      · exact others other isLater

/-- What is left of a delivery asks the transport of an open connection for nothing exactly if it
is harmless. -/
theorem leavesTransport_actOn_iff {read : List Event × Option Error}
    (opened : s.client.phase = .opened) (free : s.client.gate.isHeld = false) :
    LeavesTransport s ((actOn read).run (onlooker answer) s).2 ↔
      (actOn read).Harmless s.client.config := by
  constructor
  · exact fun left => harmless_actOn_iff.mpr (harmless_of_leavesTransport opened free left)
  · exact fun harmless => (idle_run harmless rfl).2

end Client

end WebSocket
