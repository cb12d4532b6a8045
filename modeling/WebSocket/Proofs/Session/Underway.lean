import WebSocket.Proofs.Session.Assurance

/-!
# Calls under way

A history tells which calls have been made and have not returned yet (`underWay`), and these are the
calls that a session goes on with (`underWay_of_reachable`).
-/

namespace WebSocket

/-- The calls under way, the last one first. -/
def underWay : List Moment → List Call
  | [] => []
  | .called call :: h => call :: underWay h
  | .returned _ :: h => (underWay h).tail
  | .changed .. :: h | .asked _ :: h | .answered .. :: h => underWay h

namespace Session

theorem underWay_act {call : Call} {callers : List Caller} {c : Client} {h : List Moment}
    (begun : underWay h = call :: callers.map Caller.call) (since : List Moment)
    (x : Action Reply) :
    underWay (act call since callers x c h).history =
      (act call since callers x c h).callers.map Caller.call := by
  induction x generalizing c h with
  | done reply => exact congrArg List.tail begun
  | access change next ih => exact ih c begun
  | ask request next ih => exact begun
  | wait limit ready next ih =>
    unfold act
    split
    · exact ih begun
    · exact begun

theorem underWay_turn {s : Session} (same : underWay s.history = s.callers.map Caller.call)
    {choice : Choice} {turn : Turn} (possible : s.turn? choice = some turn) :
    underWay turn.history = turn.call :: turn.callers.map Caller.call := by
  obtain ⟨c, callers, h⟩ := s
  cases choice with
  | call call =>
    cases possible
    exact congrArg _ same
  | answer how =>
    match callers, possible with
    | ⟨call, since, .asking request next⟩ :: callers, possible =>
      cases possible
      exact same
  | goOn =>
    match callers, possible with
    | ⟨call, since, .waiting limit ready next⟩ :: callers, possible =>
      simp only [turn?] at possible
      split at possible
      · cases possible
        exact same
      · cases possible

theorem underWay_of_reachable {allowed : Session → Turn → Prop} {config : Config} {seed : UInt32}
    {s : Session} (reachable : ReachableBy allowed config seed s) :
    underWay s.history = s.callers.map Caller.call := by
  induction reachable with
  | start => rfl
  | turn choice before possible allows same =>
    exact underWay_act (underWay_turn same possible) _ _

end Session

end WebSocket
