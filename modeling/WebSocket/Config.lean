import WebSocket.Limits

/-!
# Configuration of a client
-/

namespace WebSocket

/-- A length of time in milliseconds. -/
structure Duration where
  millis : Nat
  deriving DecidableEq, Repr

namespace Duration

def seconds (n : Nat) : Duration := ⟨1000 * n⟩

/-- The longest length of time: a nanosecond less than 2^64 seconds, in whole milliseconds. -/
def longest : Duration := ⟨(1 <<< 64) * 1000 - 1⟩

/-- A clock counts seconds in 63 bits, so a wait of that many seconds or more never ends. -/
def isBounded (d : Duration) : Bool := d.millis < (1 <<< 63) * 1000

end Duration

/-- How long blocking calls wait where the caller does not say. -/
structure Timeouts where
  handshake : Duration := .seconds 30
  send : Duration := .seconds 60
  receive : Duration := .seconds 60
  deriving DecidableEq, Repr

structure Config where
  limits : Limits := {}
  /-- Servers must not mask; a masked frame is refused unless this is set. -/
  acceptMasked : Bool := false
  autoPong : Bool := true
  readBufferSize : Nat := 8192
  writeBufferSize : Nat := 8192
  /-- Without timeouts, blocking calls wait for as long as it takes. -/
  timeouts : Option Timeouts := none
  deriving DecidableEq, Repr

end WebSocket
