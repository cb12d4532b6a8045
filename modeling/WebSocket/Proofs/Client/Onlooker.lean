import WebSocket.Client.Call
import WebSocket.Client.Run
import WebSocket.Client.Wire

/-!
# Surroundings that leave the client alone

An onlooker answers the requests of a client and never uses the client itself. Every action that
need not wait then comes to an end (`Action.Ends`), and calls can be made one after another
(`callEach`).
-/

namespace WebSocket

/-- A client and what it has asked for, latest first. -/
abbrev Watched := Setting (List Request)

/-- Surroundings that answer by what was asked before and never use the client. -/
def onlooker (answer : (r : Request) → List Request → r.Answer) : Surroundings (List Request) :=
  fun r s => (some (answer r s.around), { s with around := r :: s.around })

/-- Makes calls one after another; `none` if one of them does not come to an end. -/
def callEach {σ : Type} (answer : Surroundings σ) :
    List Call → Setting σ → Option (Setting σ)
  | [], s => some s
  | call :: later, s =>
    match call.action.run answer s with
    | (.finished _, s) => callEach answer later s
    | (_, _) => none

namespace Action

variable {α β σ : Type} {answer : Surroundings σ} {s s' s'' : Setting σ}

/-- An action comes to an end, with a value. -/
def Ends (answer : Surroundings σ) (x : Action α) (s : Setting σ) (value : α)
    (s' : Setting σ) : Prop :=
  x.run answer s = (.finished value, s')

theorem ends_pure (value : α) : Ends answer (pure value) s value s := rfl

theorem run_bind_of_ends {x : Action α} {value : α} (ends : Ends answer x s value s')
    (k : α → Action β) : (x >>= k).run answer s = (k value).run answer s' := by
  unfold Ends at ends
  show run answer (x.bind k) s = _
  induction x generalizing s with
  | done v =>
    cases ends
    rfl
  | access change next ih => exact ih s.client ends
  | ask request next ih =>
    simp only [bind, run] at ends ⊢
    cases answered : answer request s with
    | mk a s₁ =>
      cases a with
      | none =>
        rw [answered] at ends
        cases ends
      | some a =>
        rw [answered] at ends
        exact ih a ends
  | wait limit ready next ih =>
    simp only [bind, run] at ends ⊢
    cases ended : ready s.client with
    | true =>
      rw [ended] at ends
      exact ih ends
    | false =>
      rw [ended] at ends
      cases ends

theorem ends_bind {x : Action α} {k : α → Action β} {value : α} {result : β}
    (first : Ends answer x s value s') (later : Ends answer (k value) s' result s'') :
    Ends answer (x >>= k) s result s'' :=
  (run_bind_of_ends first k).trans later

theorem ends_map {f : α → β} {x : Action α} {value : α} (h : Ends answer x s value s') :
    Ends answer (f <$> x) s (f value) s' :=
  ends_bind h (ends_pure (f value))

theorem ends_discard {x : Action α} {value : α} (h : Ends answer x s value s') :
    Ends answer (discard x) s () s' :=
  ends_map h

theorem ends_get : Ends answer get s s.client s := rfl

theorem ends_modify (change : Client → Client) :
    Ends answer (modify change) s () { s with client := change s.client } := rfl

theorem ends_step (change : Client → α × Client) :
    Ends answer (step change) s (change s.client).1
      { s with client := (change s.client).2 } := rfl

theorem ends_waitFor {ready : Client → Bool} (ended : ready s.client = true)
    (limit : Option Duration) : Ends answer (waitFor limit ready) s () s := by
  simp only [Ends, waitFor, run, ended, if_true]

theorem ends_request (answer : (r : Request) → List Request → r.Answer) (r : Request)
    (s : Watched) :
    Ends (onlooker answer) (request r) s (answer r s.around)
      { s with around := r :: s.around } := rfl

end Action

theorem callEach_cons {σ : Type} {answer : Surroundings σ} {call : Call} {reply : Reply}
    {s s' : Setting σ} (ends : Action.Ends answer call.action s reply s') (later : List Call) :
    callEach answer (call :: later) s = callEach answer later s' := by
  unfold Action.Ends at ends
  simp only [callEach, ends]

end WebSocket
