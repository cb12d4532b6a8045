import WebSocket.Client.Receiving
import WebSocket.Client.Wire
import WebSocket.Proofs.Session.Assurance

/-!
# What actions are composed of

An action of a client is composed of changes of its state, requests and waits. Two courses of steps
belong together: a frame that goes through the gate, and a fault that is told before the attempt is
left. `Action.Composed` says of what sort the parts are. Whatever each part does the action does,
which is said once for facts about all steps (`Composed.every`) and once for duties
(`Composed.does`).
-/

namespace WebSocket

variable {α β : Type}

/-! ### Handing a frame over -/

def HandsOver (transmit : Bytes → Action α) : Prop :=
  ∀ bytes, ∃ (r : Request) (give : r.Answer → α),
    transmit bytes = .ask r (fun answer => .done (give answer)) ∧ r.frame? = some bytes

theorem handsOver_sendAsync : HandsOver fun bytes => Action.request (.sendAsync bytes) :=
  fun bytes => ⟨.sendAsync bytes, id, rfl, rfl⟩

theorem handsOver_send : HandsOver fun bytes => Action.request (.send bytes) :=
  fun bytes => ⟨.send bytes, id, rfl, rfl⟩

theorem handsOver_transmitWithin (limit : Option Duration) :
    HandsOver (Client.transmitWithin limit) := by
  intro bytes
  cases limit with
  | none => exact ⟨.send bytes, id, rfl, rfl⟩
  | some limit => exact ⟨.sendWithin limit bytes, id, rfl, rfl⟩

/-- What follows once the gate is free. -/
def Client.pastGate (consent : Client → Except Error Unit) (parcel : Parcel)
    (transmit : Bytes → Action α) : Action (Except Error α) := do
  match ← Action.step (enterGate consent parcel) with
  | .error e => return .error e
  | .ok bytes =>
    let answer ← transmit bytes
    Action.modify leaveGate
    return .ok answer

theorem Client.throughGate_eq (consent : Client → Except Error Unit) (parcel : Parcel)
    (transmit : Bytes → Action α) : throughGate consent parcel transmit =
      Action.waitFor none (fun c => !c.gate.isHeld) >>= fun _ =>
        pastGate consent parcel transmit := rfl

namespace Action

/-! ### Composition -/

/-- An action is composed of strokes and requests of some sort and of waits, sends parcels of some
sort through the gate, and leaves the attempt after it told of a fault. -/
inductive Composed (stroke : Client → Client → Prop) (asks : Request → Prop)
    (sends : Parcel → Prop) {α : Type} : Action α → Prop
  | done (value : α) : Composed stroke asks sends (.done value)
  | access {change : Client → Client} {next : Client → Action α}
    (strokes : ∀ c, stroke c (change c)) (later : ∀ c, Composed stroke asks sends (next c)) :
    Composed stroke asks sends (.access change next)
  | ask {request : Request} {next : request.Answer → Action α} (asked : asks request)
    (later : ∀ answer, Composed stroke asks sends (next answer)) :
    Composed stroke asks sends (.ask request next)
  | wait {limit : Option Duration} {ready : Client → Bool} {next : Action α}
    (later : Composed stroke asks sends next) :
    Composed stroke asks sends (.wait limit ready next)
  | gate {β : Type} {consent : Client → Except Error Unit} {parcel : Parcel}
    {transmit : Bytes → Action β} {next : Except Error β → Action α} (sent : sends parcel)
    (handsOver : HandsOver transmit) (later : ∀ v, Composed stroke asks sends (next v)) :
    Composed stroke asks sends (Client.throughGate consent parcel transmit >>= next)
  | fault {β : Type} {e : Error} {change : Client → β × Client} {next : β → Action α}
    (strokes : ∀ c, stroke c (change c).2) (leaves : ∀ c, (change c).2.phase ≠ .connecting)
    (later : ∀ v, Composed stroke asks sends (next v)) :
    Composed stroke asks sends (Client.notify (.error e) >>= fun _ => step change >>= next)

variable {stroke : Client → Client → Prop} {asks : Request → Prop} {sends : Parcel → Prop}

theorem Composed.mono {stroke' : Client → Client → Prop} {asks' : Request → Prop}
    {sends' : Parcel → Prop} {x : Action α} (composed : x.Composed stroke asks sends)
    (wider : ∀ c c', stroke c c' → stroke' c c') (more : ∀ r, asks r → asks' r)
    (heavier : ∀ parcel, sends parcel → sends' parcel) : x.Composed stroke' asks' sends' := by
  induction composed with
  | done value => exact .done value
  | access strokes later ih => exact .access (fun c => wider _ _ (strokes c)) ih
  | ask asked later ih => exact .ask (more _ asked) ih
  | wait later ih => exact .wait ih
  | gate sent handsOver later ih => exact .gate (heavier _ sent) handsOver ih
  | fault strokes leaves later ih => exact .fault (fun c => wider _ _ (strokes c)) leaves ih

theorem composed_pure (value : α) : (pure value : Action α).Composed stroke asks sends :=
  .done value

theorem composed_bind {x : Action α} {k : α → Action β} (first : x.Composed stroke asks sends)
    (later : ∀ v, (k v).Composed stroke asks sends) : (x >>= k).Composed stroke asks sends := by
  induction first with
  | done value => exact later value
  | access strokes _ ih => exact .access strokes ih
  | ask asked _ ih => exact .ask asked ih
  | wait _ ih => exact .wait ih
  | gate sent handsOver _ ih =>
    rw [bind_assoc]
    exact .gate sent handsOver ih
  | fault strokes leaves _ ih =>
    simp only [bind_assoc]
    exact .fault strokes leaves ih

theorem composed_map {f : α → β} {x : Action α} (composed : x.Composed stroke asks sends) :
    (f <$> x).Composed stroke asks sends := composed_bind composed fun _ => .done _

theorem composed_discard {x : Action α} (composed : x.Composed stroke asks sends) :
    (discard x).Composed stroke asks sends := composed_map composed

/-- What follows a step may depend on the state that gave its value. -/
theorem composed_step_bind {f : Client → α × Client} {k : α → Action β}
    (strokes : ∀ c, stroke c (f c).2) (later : ∀ c, (k (f c).1).Composed stroke asks sends) :
    (step f >>= k).Composed stroke asks sends := .access strokes later

theorem composed_step {f : Client → α × Client} (strokes : ∀ c, stroke c (f c).2) :
    (step f).Composed stroke asks sends := .access strokes fun _ => .done _

theorem composed_modify {f : Client → Client} (strokes : ∀ c, stroke c (f c)) :
    (modify f).Composed stroke asks sends := .access strokes fun _ => .done _

theorem composed_get (look : ∀ c, stroke c c) : get.Composed stroke asks sends :=
  .access look .done

theorem composed_request {r : Request} (asked : asks r) :
    (request r).Composed stroke asks sends := .ask asked .done

theorem composed_waitFor (limit : Option Duration) (ready : Client → Bool) :
    (waitFor limit ready).Composed stroke asks sends := .wait (.done ())

theorem bind_pure_done (x : Action α) : x >>= Action.done = x := by
  show x.bind Action.done = x
  induction x with
  | done value => rfl
  | access change next ih => exact congrArg (Action.access change) (funext ih)
  | ask request next ih => exact congrArg (Action.ask request) (funext ih)
  | wait limit ready next ih => exact congrArg (Action.wait limit ready) ih

theorem composed_gate {consent : Client → Except Error Unit} {parcel : Parcel}
    {transmit : Bytes → Action α} (sent : sends parcel) (handsOver : HandsOver transmit) :
    (Client.throughGate consent parcel transmit).Composed stroke asks sends := by
  rw [← bind_pure_done (Client.throughGate consent parcel transmit)]
  exact .gate sent handsOver .done

/-! ### What holds of all steps -/

theorem every_notify {possible : Client → Prop} {change : Client → Client → Prop}
    {notice : Notice} (same : ∀ c, possible c → change c c)
    (tells : ∀ listener, asks (.notify listener notice)) :
    (Client.notify notice).Every possible change asks := by
  apply every_bind (every_get same)
  intro c
  split
  · exact every_request (tells _)
  · exact every_pure ()

/-- Only the frames of a parcel are handed over. -/
theorem every_throughGate {possible : Client → Prop} {change : Client → Client → Prop}
    (gate : ∀ c c', GateStroke c c' → change c c') {consent : Client → Except Error Unit}
    {parcel : Parcel} {transmit : Bytes → Action α} (handsOver : HandsOver transmit)
    (frames : ∀ r key, r.frame? = some (parcel.encode key) → asks r) :
    (Client.throughGate consent parcel transmit).Every possible change asks := by
  apply every_bind (every_waitFor _ _)
  intro _
  apply every_step_bind fun c _ => gate _ _ (.enterGate consent parcel)
  intro c _
  cases granted : consent c with
  | error e =>
    rw [Client.enterGate_refused granted]
    exact every_pure _
  | ok _ =>
    obtain ⟨key, masks, entered⟩ := Client.enterGate_granted granted parcel
    obtain ⟨r, give, handed, frame⟩ := handsOver (parcel.encode key)
    rw [entered]
    simp only [handed]
    exact ⟨frames r key frame, fun _ c' _ => ⟨gate _ _ .leaveGate, trivial⟩⟩

theorem Composed.every {change : Client → Client → Prop} {asks' : Request → Prop} {x : Action α}
    (composed : x.Composed stroke asks sends) (wider : ∀ c c', stroke c c' → change c c')
    (look : ∀ c, change c c)
    (gate : ∀ parcel, sends parcel → ∀ c c', GateStroke c c' → change c c')
    (more : ∀ r, asks r → asks' r) (errors : ∀ listener e, asks' (.notify listener (.error e)))
    (frames : ∀ r parcel key, sends parcel → r.frame? = some (parcel.encode key) → asks' r) :
    x.Every (fun _ => True) change asks' := by
  induction composed with
  | done value => trivial
  | access strokes later ih => exact fun c _ => ⟨wider _ _ (strokes c), ih c⟩
  | ask asked later ih => exact ⟨more _ asked, ih⟩
  | wait later ih => exact ih
  | gate sent handsOver later ih =>
    exact every_bind (every_throughGate (gate _ sent) handsOver fun r key => frames r _ key sent) ih
  | fault strokes leaves later ih =>
    apply every_bind (every_notify (fun c _ => look c) fun listener => errors listener _)
    intro _
    exact every_bind (every_step fun c _ => wider _ _ (strokes c)) ih

end Action

/-! ### Duties -/

open WebSocket.Action

/-- What an action owes that sends a parcel through the gate: while the gate is held it waits, and
it waits for ever; where the parcel is consented to, it hands the frame over with the gate held. -/
theorem Action.assures_throughGate {duty : Duty} {consent : Client → Except Error Unit}
    {parcel : Parcel} {transmit : Bytes → Action α} (handsOver : HandsOver transmit)
    {ends : Except Error α → Client → List Moment → Prop} {c : Client} {h : List Moment}
    (waits : c.gate.isHeld = true → duty.holds c h ∧
      ∀ c' h', duty.keeps c h c' h' → c'.gate.isHeld = true)
    (refused : c.gate.isHeld = false → ∀ e, ends (.error e) c (.changed c c :: h))
    (handed : c.gate.isHeld = false → consent c = .ok () → ∀ r key masks,
      r.frame? = some (parcel.encode key) →
        let c₁ : Client := { c with gate := ⟨masks, true⟩ }
        duty.holds c₁ (.asked r :: .changed c c₁ :: h) ∧ ∀ answer c' h', duty.holds c' h' →
          duty.keeps c₁ (.asked r :: .changed c c₁ :: h) c' h' → ∀ v,
            ends (.ok v) c'.leaveGate (.changed c' c'.leaveGate :: .answered r answer :: h')) :
    (Client.throughGate consent parcel transmit).Assures duty ends c h := by
  refine assures_bind.mpr ?_
  show if !c.gate.isHeld then _ else _
  cases held : c.gate.isHeld with
  | true =>
    obtain ⟨holds, stays⟩ := waits held
    refine ⟨holds, fun c' h' _ kept ended => ?_⟩
    simp [stays c' h' kept] at ended
  | false =>
    refine assures_bind.mpr (assures_step.mpr ?_)
    cases granted : consent c with
    | error e =>
      rw [Client.enterGate_refused granted]
      exact refused held e
    | ok _ =>
      obtain ⟨key, masks, entered⟩ := Client.enterGate_granted granted parcel
      obtain ⟨r, give, given, frame⟩ := handsOver (parcel.encode key)
      obtain ⟨holds, later⟩ := handed held granted r key masks frame
      rw [entered]
      simp only [given]
      exact ⟨holds, fun answer c' h' holds' kept => later answer c' h' holds' kept (give answer)⟩

/-- The parts of composed actions do their part of a duty. -/
structure Duty.Suits (duty : Duty) (stroke : Client → Client → Prop) (asks : Request → Prop)
    (sends : Parcel → Prop) : Prop extends Tolerates duty stroke asks where
  gate : ∀ {β : Type} {consent : Client → Except Error Unit} {parcel : Parcel}
    {transmit : Bytes → Action β}, sends parcel → HandsOver transmit →
      (Client.throughGate consent parcel transmit).Does duty duty.holds
  fault : ∀ {β : Type} {e : Error} {change : Client → β × Client}, (∀ c, stroke c (change c).2) →
    (∀ c, (change c).2.phase ≠ .connecting) →
      (Client.notify (.error e) >>= fun _ => step change).Does duty duty.holds

theorem Action.Composed.does {duty : Duty} {stroke : Client → Client → Prop}
    {asks : Request → Prop} {sends : Parcel → Prop} (suits : duty.Suits stroke asks sends)
    {x : Action α} (composed : x.Composed stroke asks sends) : x.Does duty duty.holds := by
  induction composed with
  | done value => exact does_pure value
  | access strokes later ih =>
    intro c h holds
    obtain ⟨holds', kept⟩ := suits.changed holds (strokes c)
    exact (ih c).after holds' kept
  | ask asked later ih =>
    intro c h holds
    obtain ⟨holds', kept⟩ := suits.asked holds asked
    refine ⟨holds', fun answer c₁ h₁ holds₁ kept₁ => ?_⟩
    obtain ⟨holds₂, kept₂⟩ := suits.answered answer holds₁ asked
    exact (ih answer).after holds₂ (duty.trans (duty.trans kept kept₁) kept₂)
  | wait later ih =>
    intro c h holds
    unfold Assures
    split
    · exact ih c h holds
    · exact ⟨holds, fun c₁ h₁ holds₁ kept₁ _ => ih.after holds₁ kept₁⟩
  | gate sent handsOver later ih => exact does_bind (suits.gate sent handsOver) ih
  | fault strokes leaves later ih =>
    rw [← bind_assoc]
    exact does_bind (suits.fault strokes leaves) ih

end WebSocket
