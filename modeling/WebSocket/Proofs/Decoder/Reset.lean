import WebSocket.Proofs.Decoder.ToClose

/-!
# What a reset leaves of a decoder

A reset leaves the settings of a decoder and nothing else, and reading never changes the settings.
So all decoders of a connection reset to the same one.
-/

namespace WebSocket

theorem Assembly.reset_push (a : Assembly) (frame : Frame) : (a.push frame).2.reset = a.reset := by
  unfold Assembly.push
  repeat' (first | rfl | split)

namespace Decoder

theorem reset_feed (d : Decoder) (data : Bytes) : (d.feed data).reset = d.reset := rfl

theorem reset_nextFrame {d rest : Decoder} {frame : Frame}
    (taken : d.nextFrame = .ok (some (frame, rest))) : rest.reset = d.reset := by
  unfold nextFrame at taken
  repeat' split at taken
  all_goals cases taken
  rfl

theorem reset_accept (d : Decoder) (frame : Frame) : (d.accept frame).2.reset = d.reset := by
  unfold accept
  split
  · rfl
  · split
    · rfl
    · rfl
    · rfl
    all_goals simp only [reset, Assembly.reset_push]

theorem reset_nextEvent (d : Decoder) : d.nextEvent.2.reset = d.reset := by
  fun_induction nextEvent d with
  | case1 d e refused => rfl
  | case2 d missing => rfl
  | case3 d frame rest taken _ quiet ih => rw [ih, reset_accept, reset_nextFrame taken]
  | case4 d frame rest taken result loud => rw [reset_accept, reset_nextFrame taken]

theorem reset_drainFrom (isLast : Event → Bool) (events : List Event) (d : Decoder) :
    (drainFrom isLast events d).decoder.reset = d.reset := by
  fun_induction drainFrom isLast events d with
  | case1 events d e rest taken => simpa only [taken] using reset_nextEvent d
  | case2 events d rest taken => simpa only [taken] using reset_nextEvent d
  | case3 events d event rest taken => simpa only [taken] using reset_nextEvent d
  | case4 events d event rest taken _ notLast ih =>
    have same : rest.reset = d.reset := by simpa only [taken] using reset_nextEvent d
    exact ih.trans same

theorem reset_drainToClose (d : Decoder) : d.drainToClose.decoder.reset = d.reset :=
  reset_drainFrom _ _ _

end Decoder

end WebSocket
