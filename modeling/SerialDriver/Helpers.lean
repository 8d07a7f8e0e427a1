import SerialDriver.Driver

/-!
# `hw_test_helpers.c`

The helper functions that reset, inspect and feed the modelled rings.
-/

namespace Xr17v358

/-- `memset` of the storage to zero. -/
def Ring.scrub (r : Ring) : Ring :=
  ⟨{ r.1 with storage := fun _ => 0 }, r.2.capacity_le, r.2.size_le, r.2.head_lt, r.2.head_zero,
    r.2.tail_eq⟩

def Port.scrub (port : Port) : Port :=
  { port with
    txFifo := port.txFifo.scrub
    rxFifo := port.rxFifo.scrub
    rxPending := port.rxPending.scrub
    txQueue := port.txQueue.scrub
    rxQueue := port.rxQueue.scrub }

/-- `xr17v358_reset`. -/
def reset (d : Driver) : Driver := ⟨fun p => ((resetState d).ports p).scrub, true⟩

/-- `xr17v358_fifo_level`. -/
def fifoLevel (d : Driver) (portIndex : Nat) : Nat × Driver :=
  d.onPort portIndex 0 fun _ port => (port.rxFifo.frameCount, port)

/-- `xr17v358_queue_size`. -/
def queueSize (d : Driver) (portIndex : Nat) : Nat × Driver :=
  d.onPort portIndex 0 fun _ port => (port.txFifo.frameCount, port)

/-- `xr17v358_receive`. -/
def receive (d : Driver) (portIndex : Nat) (data : InBuffer) (bytesReceived : Ptr) :
    Reply × Driver :=
  d.onPort portIndex (.code .errorInvalidPort) fun p port =>
    if bytesReceived = .null ∨ data.missing then (.code .errorInvalidArgument, port)
    else
      let (error, received, rxPending) := enqueuePacket p port.rxPending data
      ({ status := error, count := some received }, { port with rxPending := rxPending })

/-- `xr17v358_inject_rx_frame_bytes`. -/
def injectRxFrameBytes : Driver → Nat → InBuffer → Ptr → Reply × Driver :=
  injectFrameBytes Port.rxFifo fun port rxFifo => { port with rxFifo := rxFifo }

/-- `xr17v358_inject_tx_frame_bytes`. -/
def injectTxFrameBytes : Driver → Nat → InBuffer → Ptr → Reply × Driver :=
  injectFrameBytes Port.txFifo fun port txFifo => { port with txFifo := txFifo }

/-- `xr17v358_inject_queue_frame_bytes`, which also writes to `tx_fifo`. -/
def injectQueueFrameBytes : Driver → Nat → InBuffer → Ptr → Reply × Driver :=
  injectFrameBytes Port.txFifo fun port txFifo => { port with txFifo := txFifo }

/-- `xr17v358_transfer_next_tx_frame`. -/
def transferNextTxFrame (d : Driver) (portIndex : Nat) : Reply × Driver :=
  d.onPort portIndex (.code .errorInvalidPort) fun _ port =>
    if port.txQueue.frameCount = 0 then (.code .errorInvalidFrame, port)
    else if ¬ port.txFifo.canAcceptFrame fifoCapacity then (.code .errorInvalidFrame, port)
    else
      let (error, txQueue, txFifo) := Ring.transferFrame port.txQueue port.txFifo
      (.code error, { port with txQueue := txQueue, txFifo := txFifo })

/-- The loop of `queueRead`, `out` being the bytes copied so far. A turn takes bytes out of
`tx_fifo`, so the bytes buffered bound the turns. -/
def queueReadLoop (portIndex length : Nat) : Nat → Ring → List UInt8 → Reply × Ring
  | 0, txFifo, out => (.returned out, txFifo)
  | n + 1, txFifo, out =>
    if out.length < length ∧ 0 < txFifo.size then
      if ¬ txFifo.hasCompleteFrame then (.returned out, txFifo)
      else
        let (reply, txFifo) := txFifo.readFrame
        if reply.status ≠ .ok then ({ status := reply.status, data := out }, txFifo)
        else
          let decoded := decode portIndex reply.frame
          if decoded.status ≠ .ok then ({ status := decoded.status, data := out }, txFifo)
          else if length - out.length < decoded.data.length then
            ({ status := .errorInvalidArgument, data := out }, txFifo)
          else queueReadLoop portIndex length n txFifo (out ++ decoded.data)
    else (.returned out, txFifo)

/-- `xr17v358_queue_read`. -/
def queueRead (d : Driver) (portIndex : Nat) (data : OutBuffer) (bytesRead : Ptr) :
    Reply × Driver :=
  d.onPort portIndex (.code .errorInvalidPort) fun p port =>
    if bytesRead = .null ∨ data.missing then (.code .errorInvalidArgument, port)
    else
      let (reply, txFifo) := queueReadLoop p data.length port.txFifo.size port.txFifo []
      (reply, { port with txFifo := txFifo })

end Xr17v358
