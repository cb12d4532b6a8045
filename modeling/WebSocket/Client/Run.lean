import WebSocket.Client.Action

/-!
# Running what a client does

An action runs against surroundings that answer its requests and may change the client before
they answer. At a wait that is not over the run stops, and what is left of the action can go on
later; or, where the surroundings can let time pass, the run goes on when they say so.
-/

namespace WebSocket

structure Setting (σ : Type) where
  client : Client
  around : σ

/-- What answers the requests of a client; `none` if the answer never comes. -/
abbrev Surroundings (σ : Type) := (r : Request) → Setting σ → Option r.Answer × Setting σ

/-- What happens while a client waits for a limited time or until it is ready; `false` if the wait
is never over. -/
abbrev Pause (σ : Type) :=
  (limit : Option Duration) → (ready : Client → Bool) → Setting σ → Bool × Setting σ

inductive Progress (α : Type) where
  | finished (value : α)
  /-- It waits, and this is what is left of it. -/
  | waiting (limit : Option Duration) (ready : Client → Bool) (rest : Action α)
  | stuck

namespace Action

variable {α σ : Type}

/-- Runs an action up to the first wait that is not over. -/
def run (answer : Surroundings σ) : Action α → Setting σ → Progress α × Setting σ
  | .done value, s => (.finished value, s)
  | .access change next, s => run answer (next s.client) { s with client := change s.client }
  | .ask request next, s =>
    match answer request s with
    | (some a, s) => run answer (next a) s
    | (none, s) => (.stuck, s)
  | .wait limit ready next, s =>
    if ready s.client then run answer next s else (.waiting limit ready next, s)

/-- Runs an action to its end; `none` if it has none. -/
def finish (answer : Surroundings σ) (pause : Pause σ) :
    Action α → Setting σ → Option α × Setting σ
  | .done value, s => (some value, s)
  | .access change next, s =>
    finish answer pause (next s.client) { s with client := change s.client }
  | .ask request next, s =>
    match answer request s with
    | (some a, s) => finish answer pause (next a) s
    | (none, s) => (none, s)
  | .wait limit ready next, s =>
    if ready s.client then finish answer pause next s
    else
      match pause limit ready s with
      | (true, s) => finish answer pause next s
      | (false, s) => (none, s)

end Action

end WebSocket
