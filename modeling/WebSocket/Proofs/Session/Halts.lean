import WebSocket.Proofs.Session.Stroke

/-!
# Where calls give up control

A call gives up control where it asks for something and where it waits. What can be said of all the
halts of its action can be said of the halt of every call under way (`halts_of_reachable`).
-/

namespace WebSocket

variable {α β : Type}

namespace Action

/-- Wherever an action may give up control, its halt is of some sort. -/
def Halts (sort : Halt → Prop) : Action Reply → Prop
  | .done _ => True
  | .access _ next => ∀ c, (next c).Halts sort
  | .ask request next => sort (.asking request next) ∧ ∀ answer, (next answer).Halts sort
  | .wait limit ready next => sort (.waiting limit ready next) ∧ next.Halts sort

theorem halts_of_all {sort : Halt → Prop} (all : ∀ halt, sort halt) (x : Action Reply) :
    x.Halts sort := by
  induction x with
  | done value => trivial
  | access change next ih => exact ih
  | ask request next ih => exact ⟨all _, ih⟩
  | wait limit ready next ih => exact ⟨all _, ih⟩

/-! ### Actions that never wait -/

def WaitFree : Action α → Prop
  | .done _ => True
  | .access _ next => ∀ c, (next c).WaitFree
  | .ask _ next => ∀ answer, (next answer).WaitFree
  | .wait .. => False

theorem WaitFree.halts {x : Action Reply} (waitFree : x.WaitFree) {sort : Halt → Prop}
    (asking : ∀ request next, sort (.asking request next)) : x.Halts sort := by
  induction x with
  | done value => trivial
  | access change next ih => exact fun c => ih c (waitFree c)
  | ask request next ih => exact ⟨asking request next, fun answer => ih answer (waitFree answer)⟩
  | wait limit ready next ih => cases waitFree

end Action

/-! ### Calls under way -/

namespace Session

theorem halts_of_act {call : Call} {since : List Moment} {callers : List Caller} {c : Client}
    {h : List Moment} {sort : Halt → Prop} {x : Action Reply} (halts : x.Halts sort) :
    ∀ caller ∈ (act call since callers x c h).callers, caller ∈ callers ∨
      caller.call = call ∧ sort caller.halt ∧ caller.halt.Leaves (Action.Halts sort) := by
  have last : ∀ {halt : Halt}, sort halt → halt.Leaves (Action.Halts sort) →
      ∀ caller ∈ ⟨call, since, halt⟩ :: callers, caller ∈ callers ∨
        caller.call = call ∧ sort caller.halt ∧ caller.halt.Leaves (Action.Halts sort) := by
    intro halt ofSort leaves caller isIn
    rcases List.mem_cons.mp isIn with rfl | isOuter
    · exact .inr ⟨rfl, ofSort, leaves⟩
    · exact .inl isOuter
  induction x generalizing c h with
  | done reply => exact fun caller => .inl
  | access change next ih => exact ih c (halts c)
  | ask request next ih => exact last halts.1 halts.2
  | wait limit ready next ih =>
    unfold act
    split
    · exact ih halts.2
    · exact last halts.1 halts.2

theorem halts_of_reachable {sort : Call → Halt → Prop}
    (halts : ∀ call : Call, call.action.Halts (sort call)) {allowed : Session → Turn → Prop}
    {config : Config} {seed : UInt32} {s : Session}
    (reachable : ReachableBy allowed config seed s) :
    ∀ caller ∈ s.callers, sort caller.call caller.halt ∧
      caller.halt.Leaves (Action.Halts (sort caller.call)) := by
  induction reachable with
  | start => exact fun caller isIn => absurd isIn List.not_mem_nil
  | @turn s turn choice before possible allows earlier =>
    obtain ⟨course, outer⟩ := course_of_turn (fun call => Action.Halts (sort call)) halts
      (fun caller isIn => (earlier caller isIn).2) possible
    intro caller isIn
    rcases halts_of_act course caller isIn with isOuter | ⟨same, ofSort, leaves⟩
    · exact earlier caller (outer caller isOuter)
    · rw [same]
      exact ⟨ofSort, leaves⟩

end Session

end WebSocket
