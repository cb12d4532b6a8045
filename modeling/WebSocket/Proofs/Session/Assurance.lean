import WebSocket.Proofs.Session.Stroke

/-!
# What every session keeps to

A `Duty` is what calls owe each other: what holds whenever others have control, and what a call
keeps from its start to its end. `Action.Assures` says that an action does its part. It is computed
along the action and relies, where others get control, on what their calls keep. If all calls do
their part then every session does (`Session.sound_of_assured`).
-/

namespace WebSocket

/-- What calls owe each other. -/
structure Duty where
  /-- What holds whenever others have control. -/
  holds : Client → List Moment → Prop
  /-- What stays the same from the start of a call to its end. -/
  keeps : Client → List Moment → Client → List Moment → Prop
  refl : ∀ c history, keeps c history c history
  trans : ∀ {c₁ h₁ c₂ h₂ c₃ h₃}, keeps c₁ h₁ c₂ h₂ → keeps c₂ h₂ c₃ h₃ → keeps c₁ h₁ c₃ h₃

variable {α β : Type} {duty : Duty}

namespace Action

/-- An action does its part of a duty, and what it ends in is as stated. Where it gives up control
it goes on from any moment that a duty lets others lead to. -/
def Assures (duty : Duty) (ends : α → Client → List Moment → Prop) :
    Action α → Client → List Moment → Prop
  | .done value, c, h => ends value c h
  | .access change next, c, h =>
    (next c).Assures duty ends (change c) (.changed c (change c) :: h)
  | .ask request next, c, h =>
    duty.holds c (.asked request :: h) ∧
      ∀ answer c' h', duty.holds c' h' → duty.keeps c (.asked request :: h) c' h' →
        (next answer).Assures duty ends c' (.answered request answer :: h')
  | .wait limit ready next, c, h =>
    if ready c then next.Assures duty ends c h
    else duty.holds c h ∧
      ∀ c' h', duty.holds c' h' → duty.keeps c h c' h' → ready c' || limit.isSome →
        next.Assures duty ends c' h'

variable {ends : α → Client → List Moment → Prop} {c : Client} {h : List Moment}

theorem Assures.mono {ends' : α → Client → List Moment → Prop} {x : Action α}
    (assured : x.Assures duty ends c h) (weaker : ∀ v c' h', ends v c' h' → ends' v c' h') :
    x.Assures duty ends' c h := by
  induction x generalizing c h with
  | done value => exact weaker value c h assured
  | access change next ih => exact ih c assured
  | ask request next ih =>
    obtain ⟨holds, later⟩ := assured
    exact ⟨holds, fun a c' h' held kept => ih a (later a c' h' held kept)⟩
  | wait limit ready next ih =>
    unfold Assures at assured ⊢
    split
    · rw [if_pos ‹_›] at assured
      exact ih assured
    · rw [if_neg ‹_›] at assured
      exact ⟨assured.1, fun c' h' held kept ended => ih (assured.2 c' h' held kept ended)⟩

/-! ### The parts of an action -/

@[simp] theorem assures_bind {x : Action α} {k : α → Action β}
    {ends : β → Client → List Moment → Prop} :
    (x >>= k).Assures duty ends c h ↔
      x.Assures duty (fun v c' h' => (k v).Assures duty ends c' h') c h := by
  show (x.bind k).Assures duty ends c h ↔ _
  induction x generalizing c h with
  | done value => exact .rfl
  | access change next ih => exact ih c
  | ask request next ih =>
    refine and_congr_right fun _ => ?_
    exact forall_congr' fun a => forall_congr' fun c' => forall_congr' fun h' =>
      imp_congr_right fun _ => imp_congr_right fun _ => ih a
  | wait limit ready next ih =>
    simp only [bind, Assures, ih]

@[simp] theorem assures_get {ends : Client → Client → List Moment → Prop} :
    get.Assures duty ends c h ↔ ends c c (.changed c c :: h) := .rfl

@[simp] theorem assures_step {change : Client → α × Client} :
    (step change).Assures duty ends c h ↔
      ends (change c).1 (change c).2 (.changed c (change c).2 :: h) := .rfl

/-! ### Actions that do their part -/

/-- From where it starts, an action does its part of a duty and ends where others may have
control. -/
def Does (duty : Duty) (start : Client → List Moment → Prop) (x : Action α) : Prop :=
  ∀ c h, start c h →
    x.Assures duty (fun _ c' h' => duty.holds c' h' ∧ duty.keeps c h c' h') c h

/-- Changes and requests after which others may have control. -/
structure Tolerates (duty : Duty) (change : Client → Client → Prop) (asks : Request → Prop) :
    Prop where
  changed : ∀ {c c' : Client} {h : List Moment}, duty.holds c h → change c c' →
    duty.holds c' (.changed c c' :: h) ∧ duty.keeps c h c' (.changed c c' :: h)
  asked : ∀ {c : Client} {h : List Moment} {r : Request}, duty.holds c h → asks r →
    duty.holds c (.asked r :: h) ∧ duty.keeps c h c (.asked r :: h)
  answered : ∀ {c : Client} {h : List Moment} {r : Request} (answer : r.Answer),
    duty.holds c h → asks r → duty.holds c (.answered r answer :: h) ∧
      duty.keeps c h c (.answered r answer :: h)

variable {start : Client → List Moment → Prop}

theorem Does.after {x : Action α} {c₀ : Client} {h₀ : List Moment} (does : x.Does duty start)
    (isStart : start c h) (kept : duty.keeps c₀ h₀ c h) :
    x.Assures duty (fun _ c' h' => duty.holds c' h' ∧ duty.keeps c₀ h₀ c' h') c h :=
  (does c h isStart).mono fun _ _ _ ⟨holds, later⟩ => ⟨holds, duty.trans kept later⟩

theorem does_pure (value : α) : (pure value : Action α).Does duty duty.holds :=
  fun c h holds => ⟨holds, duty.refl c h⟩

theorem does_bind {x : Action α} {k : α → Action β} (first : x.Does duty start)
    (later : ∀ v, (k v).Does duty duty.holds) : (x >>= k).Does duty start := by
  intro c h isStart
  refine assures_bind.mpr ((first c h isStart).mono ?_)
  intro v c' h' ⟨holds, kept⟩
  exact (later v).after holds kept

theorem does_map {f : α → β} {x : Action α} (does : x.Does duty start) :
    (f <$> x).Does duty start := does_bind does fun v => does_pure (f v)

theorem does_discard {x : Action α} (does : x.Does duty start) : (discard x).Does duty start :=
  does_map does

theorem does_of_every {change : Client → Client → Prop} {asks : Request → Prop}
    (tolerates : Tolerates duty change asks) {x : Action α}
    (every : x.Every (fun _ => True) change asks) : x.Does duty duty.holds := by
  induction x with
  | done value => exact does_pure value
  | access f next ih =>
    intro c h holds
    obtain ⟨changed, later⟩ := every c trivial
    obtain ⟨holds', kept⟩ := tolerates.changed holds changed
    exact (ih c later).after holds' kept
  | ask request next ih =>
    intro c h holds
    obtain ⟨holds', kept⟩ := tolerates.asked holds every.1
    refine ⟨holds', fun answer c₁ h₁ holds₁ kept₁ => ?_⟩
    obtain ⟨holds₂, kept₂⟩ := tolerates.answered answer holds₁ every.1
    exact (ih answer (every.2 answer)).after holds₂ (duty.trans (duty.trans kept kept₁) kept₂)
  | wait limit ready next ih =>
    intro c h holds
    unfold Assures
    split
    · exact ih every c h holds
    · exact ⟨holds, fun c₁ h₁ holds₁ kept₁ _ => (ih every).after holds₁ kept₁⟩

end Action

/-! ### What actions end in -/

namespace Action

/-- Every value that an action may end in is of some sort. -/
def Gives (sort : α → Prop) : Action α → Prop
  | .done value => sort value
  | .access _ next => ∀ c, (next c).Gives sort
  | .ask _ next => ∀ answer, (next answer).Gives sort
  | .wait _ _ next => next.Gives sort

theorem gives_bind {sort : β → Prop} (x : Action α) {k : α → Action β}
    (later : ∀ v, (k v).Gives sort) : (x >>= k).Gives sort := by
  show (x.bind k).Gives sort
  induction x with
  | done value => exact later value
  | access change next ih => exact ih
  | ask request next ih => exact ih
  | wait limit ready next ih => exact ih

theorem Assures.gives {ends : α → Client → List Moment → Prop} {sort : α → Prop} {c : Client}
    {h : List Moment} {x : Action α} (assured : x.Assures duty ends c h) (gives : x.Gives sort) :
    x.Assures duty (fun v c' h' => ends v c' h' ∧ sort v) c h := by
  induction x generalizing c h with
  | done value => exact ⟨assured, gives⟩
  | access change next ih => exact ih c assured (gives c)
  | ask request next ih =>
    obtain ⟨holds, later⟩ := assured
    exact ⟨holds, fun answer c' h' held kept =>
      ih answer (later answer c' h' held kept) (gives answer)⟩
  | wait limit ready next ih =>
    unfold Assures at assured ⊢
    split
    · rw [if_pos ‹_›] at assured
      exact ih assured gives
    · rw [if_neg ‹_›] at assured
      obtain ⟨holds, later⟩ := assured
      exact ⟨holds, fun c' h' held kept ended => ih (later c' h' held kept ended) gives⟩

end Action

/-! ### Sessions -/

/-- A call that gave up control does its part when it gets control back. -/
def Halt.Assures (duty : Duty) (ends : Reply → Client → List Moment → Prop) (c : Client)
    (h : List Moment) : Halt → Prop
  | .asking request next => ∀ answer c' h', duty.holds c' h' → duty.keeps c h c' h' →
      (next answer).Assures duty ends c' (.answered request answer :: h')
  | .waiting limit ready next => ∀ c' h', duty.holds c' h' → duty.keeps c h c' h' →
      ready c' || limit.isSome → next.Assures duty ends c' h'

/-- What a call owes at its end to those that were under way at its start. -/
def Duty.Met (duty : Duty) (c₀ : Client) (h₀ : List Moment) (reply : Reply) (c : Client)
    (h : List Moment) : Prop :=
  duty.holds c (.returned reply :: h) ∧ duty.keeps c₀ h₀ c (.returned reply :: h)

def Call.Assured (duty : Duty) (call : Call) : Prop :=
  ∀ c h, duty.holds c h → call.action.Assures duty (duty.Met c h) c (.called call :: h)

/-- A call does its part if its action does from where the call starts. -/
theorem Call.assured_of_does {call : Call} {start : Client → List Moment → Prop}
    (does : call.action.Does duty start)
    (called : ∀ c h, duty.holds c h →
      start c (.called call :: h) ∧ duty.keeps c h c (.called call :: h))
    (returned : ∀ reply c h, duty.holds c h →
      duty.holds c (.returned reply :: h) ∧ duty.keeps c h c (.returned reply :: h)) :
    call.Assured duty := by
  intro c h holds
  obtain ⟨isStart, kept⟩ := called c h holds
  refine (does.after isStart kept).mono fun reply c' h' ⟨later, kept'⟩ => ?_
  obtain ⟨ends, keptEnd⟩ := returned reply c' h' later
  exact ⟨ends, duty.trans kept' keptEnd⟩

/-- All calls under way do their part from here on. -/
inductive Standing (duty : Duty) : List Caller → Client → List Moment → Prop
  | nil {c : Client} {h : List Moment} : Standing duty [] c h
  | cons {caller : Caller} {callers : List Caller} {c₀ c₁ c : Client} {h₀ h₁ h : List Moment}
    (outer : Standing duty callers c₀ h₀)
    (assured : caller.halt.Assures duty (duty.Met c₀ h₀) c₁ h₁)
    (kept : duty.keeps c₁ h₁ c h) : Standing duty (caller :: callers) c h

theorem Standing.later {callers : List Caller} {c c' : Client} {h h' : List Moment}
    (standing : Standing duty callers c h) (kept : duty.keeps c h c' h') :
    Standing duty callers c' h' := by
  cases standing with
  | nil => exact .nil
  | cons outer assured before => exact .cons outer assured (duty.trans before kept)

namespace Session

structure Sound (duty : Duty) (s : Session) : Prop where
  holds : duty.holds s.client s.history
  standing : Standing duty s.callers s.client s.history

theorem sound_act {call : Call} {since : List Moment} {callers : List Caller} {c₀ c : Client}
    {h₀ h : List Moment} {x : Action Reply} (outer : Standing duty callers c₀ h₀)
    (assured : x.Assures duty (duty.Met c₀ h₀) c h) :
    Sound duty (act call since callers x c h) := by
  induction x generalizing c h with
  | done reply =>
    obtain ⟨holds, kept⟩ := assured
    exact ⟨holds, outer.later kept⟩
  | access change next ih => exact ih c assured
  | ask request next ih =>
    obtain ⟨holds, later⟩ := assured
    exact ⟨holds, .cons outer later (duty.refl _ _)⟩
  | wait limit ready next ih =>
    unfold Action.Assures at assured
    unfold act
    split
    · rw [if_pos ‹_›] at assured
      exact ih assured
    · rw [if_neg ‹_›] at assured
      obtain ⟨holds, later⟩ := assured
      exact ⟨holds, .cons outer later (duty.refl _ _)⟩

theorem Sound.turn (assured : ∀ call, Call.Assured duty call) {s : Session}
    (sound : Sound duty s) {choice : Choice} {turn : Turn}
    (possible : s.turn? choice = some turn) : Sound duty (turn.play s.client) := by
  obtain ⟨c, callers, h⟩ := s
  obtain ⟨holds, standing⟩ := sound
  cases choice with
  | call call =>
    cases possible
    exact sound_act standing (assured call c h holds)
  | answer how =>
    cases standing with
    | nil => cases possible
    | @cons caller callers c₀ c₁ _ h₀ h₁ _ outer later kept =>
      obtain ⟨call, since, halt⟩ := caller
      cases halt with
      | waiting limit ready next => cases possible
      | asking request next =>
        cases possible
        exact sound_act outer (later (how request) c h holds kept)
  | goOn =>
    cases standing with
    | nil => cases possible
    | @cons caller callers c₀ c₁ _ h₀ h₁ _ outer later kept =>
      obtain ⟨call, since, halt⟩ := caller
      cases halt with
      | asking request next => cases possible
      | waiting limit ready next =>
        simp only [turn?] at possible
        split at possible
        · cases possible
          exact sound_act outer (later c h holds kept ‹_›)
        · cases possible

/-- A duty that a new client does, and all calls do, is done in every session. -/
theorem sound_of_assured (assured : ∀ call, Call.Assured duty call)
    {allowed : Session → Turn → Prop} {config : Config} {seed : UInt32}
    (start : duty.holds (.ofConfig config seed) []) {s : Session}
    (reachable : ReachableBy allowed config seed s) : Sound duty s := by
  induction reachable with
  | start => exact ⟨start, .nil⟩
  | turn choice before possible allows sound => exact sound.turn assured possible

end Session

end WebSocket
