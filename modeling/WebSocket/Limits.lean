import WebSocket.Error

/-!
# Limits on what the server may send

Sizes are checked when they are announced, before any of the bytes are stored.
-/

namespace WebSocket

/-- The largest frame, message and number of fragments that a server may send. -/
structure Limits where
  maxFrameSize : Nat := 16 * 1024 * 1024
  maxMessageSize : Nat := 64 * 1024 * 1024
  maxFragments : Nat := 128
  deriving DecidableEq, Repr

namespace Limits

def embedded : Limits := ⟨64 * 1024, 256 * 1024, 16⟩

def unrestricted : Limits :=
  ⟨(1 <<< 64) - 1, (1 <<< 64) - 1, (1 <<< 64) - 1⟩

/-- Refuses a frame by its announced payload size. -/
def checkFrameSize (limits : Limits) (size : Nat) : Except Error Unit :=
  if size ≤ limits.maxFrameSize then .ok ()
  else .error (.frameTooLarge size limits.maxFrameSize)

/-- Refuses a message by the size it would grow to. -/
def checkMessageSize (limits : Limits) (size : Nat) : Except Error Unit :=
  if size ≤ limits.maxMessageSize then .ok ()
  else .error (.messageTooLarge size limits.maxMessageSize)

/-- Refuses a message by the number of fragments it would have. -/
def checkFragments (limits : Limits) (count : Nat) : Except Error Unit :=
  if count ≤ limits.maxFragments then .ok ()
  else .error (.tooManyFragments count limits.maxFragments)

end Limits

end WebSocket
