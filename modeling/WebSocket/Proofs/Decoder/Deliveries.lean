import WebSocket.Proofs.Decoder.Growth

/-!
# Bytes that arrive in several deliveries

The bytes of a connection are cut into deliveries wherever the network likes, and each delivery is
drained before the next one comes (`drainEach`). The main statement is `drainEach_of_same_bytes`:
how the bytes are cut shows neither in the events, nor in whether reading fails, nor in what is
left over. It rests on `drainEach_eq_drain`: as long as nothing fails, deliveries can be put
together.
-/

namespace WebSocket.Decoder

/-- Feeds deliveries one after another and takes every event that each of them completes. Nothing
is fed after a failure. -/
def drainEach (d : Decoder) : List Bytes → Drained
  | [] => ⟨[], none, d⟩
  | delivery :: later =>
    let drained := (d.feed delivery).drain
    match drained.fault with
    | some _ => drained
    | none => (drained.decoder.drainEach later).after drained.events

theorem drainEach_of_fault {d : Decoder} {delivery : Bytes} {e : Error}
    (failed : (d.feed delivery).drain.fault = some e) (later : List Bytes) :
    d.drainEach (delivery :: later) = (d.feed delivery).drain := by
  simp only [drainEach, failed]

theorem drainEach_of_sound {d : Decoder} {delivery : Bytes}
    (sound : (d.feed delivery).drain.fault = none) (later : List Bytes) :
    d.drainEach (delivery :: later) =
      ((d.feed delivery).drain.decoder.drainEach later).after (d.feed delivery).drain.events := by
  simp only [drainEach, sound]

theorem drainEach_singleton (d : Decoder) (delivery : Bytes) :
    d.drainEach [delivery] = (d.feed delivery).drain := by
  cases outcome : (d.feed delivery).drain.fault with
  | some e => exact drainEach_of_fault outcome []
  | none =>
    rw [drainEach_of_sound outcome]
    simp only [drainEach, Drained.after, List.append_nil, ← outcome]

theorem drainEach_concat {d : Decoder} (deliveries : List Bytes)
    (sound : (d.drainEach deliveries).fault = none) (last : Bytes) :
    d.drainEach (deliveries ++ [last]) =
      ((d.drainEach deliveries).decoder.feed last).drain.after (d.drainEach deliveries).events := by
  induction deliveries generalizing d with
  | nil =>
    rw [List.nil_append, drainEach_singleton]
    rfl
  | cons delivery later ih =>
    cases first : (d.feed delivery).drain.fault with
    | some e =>
      rw [drainEach_of_fault first, first] at sound
      cases sound
    | none =>
      rw [drainEach_of_sound first] at sound
      rw [List.cons_append, drainEach_of_sound first, drainEach_of_sound first, ih sound,
        Drained.after_after]
      rfl

theorem drainEach_eq_drain {d : Decoder} (idle : d.nextFrame = .ok none)
    (deliveries : List Bytes) (sound : (d.drainEach deliveries).fault = none) :
    d.drainEach deliveries = (d.feed deliveries.flatten).drain := by
  induction deliveries generalizing d with
  | nil => rw [List.flatten_nil, feed_nil, drain_of_none (nextEvent_of_none idle), drainEach]
  | cons delivery later ih =>
    cases first : (d.feed delivery).drain.fault with
    | some e =>
      rw [drainEach_of_fault first, first] at sound
      cases sound
    | none =>
      rw [drainEach_of_sound first] at sound ⊢
      rw [ih (nextFrame_drain first) sound, List.flatten_cons, ← feed_feed,
        drain_feed _ _ first]

theorem drainEach_of_failure {d : Decoder} (idle : d.nextFrame = .ok none)
    (deliveries : List Bytes) {e : Error} (failed : (d.drainEach deliveries).fault = some e) :
    (d.feed deliveries.flatten).drain.events = (d.drainEach deliveries).events ∧
      (d.feed deliveries.flatten).drain.fault.isSome := by
  induction deliveries generalizing d with
  | nil => cases failed
  | cons delivery later ih =>
    rw [List.flatten_cons, ← feed_feed]
    cases first : (d.feed delivery).drain.fault with
    | some e' =>
      rw [drainEach_of_fault first]
      obtain ⟨other, grown, -⟩ := drain_feed_of_fault (d.feed delivery) later.flatten first
      rw [grown]
      exact ⟨rfl, rfl⟩
    | none =>
      rw [drainEach_of_sound first] at failed ⊢
      rw [drain_feed _ _ first]
      obtain ⟨events, fails⟩ := ih (nextFrame_drain first) failed
      exact ⟨congrArg (_ ++ ·) events, fails⟩

theorem nextFrame_ofConfig (config : Config) : (ofConfig config).nextFrame = .ok none := rfl

theorem drainEach_ofConfig (config : Config) (deliveries : List Bytes) :
    let whole := ((ofConfig config).feed deliveries.flatten).drain
    let parts := (ofConfig config).drainEach deliveries
    parts.events = whole.events ∧ parts.fault.isSome = whole.fault.isSome ∧
      (parts.fault = none → parts = whole) := by
  intro whole parts
  have idle := nextFrame_ofConfig config
  cases outcome : parts.fault with
  | none =>
    have same : parts = whole := drainEach_eq_drain idle deliveries outcome
    rw [← same]
    exact ⟨rfl, by rw [outcome], fun _ => rfl⟩
  | some e =>
    obtain ⟨events, fails⟩ := drainEach_of_failure idle deliveries outcome
    exact ⟨events.symm, fails.symm, fun sound => by simp at sound⟩

/-- Two ways of cutting the same bytes into deliveries give the same events, fail both or neither
and, if they do not fail, leave the same bytes and the same message under way. -/
theorem drainEach_of_same_bytes (config : Config) (deliveries others : List Bytes)
    (same : deliveries.flatten = others.flatten) :
    let one := (ofConfig config).drainEach deliveries
    let other := (ofConfig config).drainEach others
    one.events = other.events ∧ (one.fault.isSome ↔ other.fault.isSome) ∧
      (one.fault = none → other.fault = none →
        one.decoder.buffer = other.decoder.buffer ∧
          one.decoder.assembly = other.decoder.assembly) := by
  obtain ⟨events, fails, sound⟩ := drainEach_ofConfig config deliveries
  obtain ⟨events', fails', sound'⟩ := drainEach_ofConfig config others
  rw [← same] at events' fails' sound'
  refine ⟨events.trans events'.symm, ?_, ?_⟩
  · rw [fails, fails']
  · intro one other
    rw [sound one, sound' other]
    exact ⟨rfl, rfl⟩

/-- A character cut in two by a ping, then the first byte of another frame. -/
theorem drainEach_of_same_bytes_in_character :
    let bytes : Bytes := [0x01, 0x01, 0xC3, 0x89, 0x00, 0x80, 0x01, 0xA9, 0x02]
    let parts : List Bytes := [[0x01], [0x01, 0xC3, 0x89], [], [0x00, 0x80, 0x01], [0xA9, 0x02]]
    let one := (ofConfig {}).drainEach parts
    let other := (ofConfig {}).drainEach [bytes]
    parts.flatten = [bytes].flatten ∧ one.events = other.events ∧
      (one.fault.isSome ↔ other.fault.isSome) ∧
      (one.fault = none → other.fault = none →
        one.decoder.buffer = other.decoder.buffer ∧
          one.decoder.assembly = other.decoder.assembly) :=
  ⟨by decide, drainEach_of_same_bytes {} _ _ (by decide)⟩

end WebSocket.Decoder
