import Tailcat.Derp.Frame

/-!
# DERP transports

The interface to a relay: packets and pongs are sent, frames are received. What an implementation
does is not known to its callers; a call may throw.

## Main definitions

* `DerpSend`: what is handed to a transport
* `DerpTransport`: what a transport does while one call uses it
* `nanoseconds`, `milliseconds`, `remainingMs`: how callers reckon their timeouts
-/

namespace Tailcat

/-- `send_packet(destination, packet)` or `send_pong(value)` -/
inductive DerpSend
  | packet (destination : Key32) (packet : List UInt8)
  | pong (value : Octets 8)
  deriving DecidableEq

/-- What a transport does during a call: what sending returns or throws, and what waiting for a
frame does. -/
structure DerpTransport where
  send : DerpSend → Except Exn Unit
  receiveFor : Except Exn (Option DerpFrame)

/-- A transport that sends everything and receives one frame. -/
def DerpTransport.of (frame : DerpFrame) : DerpTransport where
  send _ := .ok ()
  receiveFor := .ok (some frame)

/-! ## Timeouts -/

/-- Times are in nanoseconds, timeouts in milliseconds. -/
def nanoseconds (milliseconds : ℤ) : ℤ := milliseconds * 1000000

/-- `duration_cast` to milliseconds, toward zero -/
def milliseconds (nanoseconds : ℤ) : ℤ := nanoseconds.tdiv 1000000

/-- `remaining_ms(deadline)` at the time `now` -/
def remainingMs (deadline now : ℤ) : ℤ :=
  if now ≥ deadline then
    0
  else
    let remaining := milliseconds (deadline - now)
    if remaining = 0 then 1 else remaining

end Tailcat
