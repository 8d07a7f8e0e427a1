import SerialDriver.Ring
import SerialDriver.Mmio

/-!
# `xr17v358.c`

The driver's state and its functions. The C program keeps one array of rings for each role; here
the five rings and the configuration of one port are one `Port`, and a function that works on
`ring[port_index]` works on that port. The functions that validate a port index go through
`Driver.onPort`, which initialises the state lazily and rejects an index out of range.
-/

namespace Xr17v358

/-! ## State -/

/-- One port's entries of the arrays `tx_fifo`, `rx_fifo`, `rx_pending`, `tx_queue`, `rx_queue` and
`port_config`. -/
structure Port where
  txFifo : Ring
  rxFifo : Ring
  rxPending : Ring
  txQueue : Ring
  rxQueue : Ring
  config : PortConfig

structure Driver where
  ports : PortIndex → Port
  isInitialized : Bool

/-- Zero-initialised static memory. -/
def Driver.zero : Driver :=
  ⟨fun _ => ⟨.zero, .zero, .zero, .zero, .zero, ⟨0, 0, 0⟩⟩, false⟩

def Driver.set (d : Driver) (p : PortIndex) (port : Port) : Driver :=
  { d with ports := Function.update d.ports p port }

def Port.reset (port : Port) : Port where
  txFifo := port.txFifo.reset (fifoCapacity * maxEncodedByteCount) le_rfl
  rxFifo := port.rxFifo.reset (fifoCapacity * maxEncodedByteCount) le_rfl
  rxPending := port.rxPending.reset ringBufferStorageCapacity le_rfl
  txQueue := port.txQueue.reset ringBufferStorageCapacity le_rfl
  rxQueue := port.rxQueue.reset ringBufferStorageCapacity le_rfl
  config := defaultPortConfig

/-- `xr17v358_reset_state`. -/
def resetState (d : Driver) : Driver := ⟨fun p => (d.ports p).reset, true⟩

/-- `xr17v358_ensure_state_initialized`. -/
def ensureStateInitialized (d : Driver) : Driver := if d.isInitialized then d else resetState d

/-- What every per-port function does first: initialise, and reject an invalid port. -/
def Driver.onPort {α : Type} (d : Driver) (portIndex : Nat) (rejected : α)
    (body : PortIndex → Port → α × Port) : α × Driver :=
  let d := ensureStateInitialized d
  if h : portIndex < getPortCount then
    let (out, port) := body ⟨portIndex, h⟩ (d.ports ⟨portIndex, h⟩)
    (out, d.set ⟨portIndex, h⟩ port)
  else (rejected, d)

/-! ## Moving bytes between rings -/

/-- `xr17v358_transfer_ring_bytes`: the status, the source and the destination. -/
def transferRingBytes (source destination : Ring) (maxBytes : Nat) : Error × Ring × Ring :=
  let bytesToMove := source.size
  let bytesToMove := if maxBytes < bytesToMove then maxBytes else bytesToMove
  let bytesToMove :=
    if destination.capacity - destination.size < bytesToMove then
      destination.capacity - destination.size
    else bytesToMove
  if bytesToMove = 0 then (.ok, source, destination)
  else
    let (bytes, source) := source.readBytes bytesToMove
    if bytes.length ≠ bytesToMove then (.errorInvalidFrame, source, destination)
    else
      let (written, destination) := destination.writeBytes bytes
      if written ≠ bytesToMove then (.errorInvalidFrame, source, destination)
      else (.ok, source, destination)

/-- `xr17v358_stage_rx_bytes_from_pending`. -/
def stageRxBytesFromPending (port : Port) : Error × Port :=
  let (error, rxPending, rxFifo) := transferRingBytes port.rxPending port.rxFifo fifoCapacity
  (error, { port with rxPending := rxPending, rxFifo := rxFifo })

/-- `xr17v358_flush_tx_queue_to_modeled_fifo`. -/
def flushTxQueueToModeledFifo (port : Port) : Error × Port :=
  let (error, txQueue, txFifo) := transferRingBytes port.txQueue port.txFifo fifoCapacity
  (error, { port with txQueue := txQueue, txFifo := txFifo })

/-- The packet step that `write`, `writeHw` and `receive` share: encode a non-empty packet and add
the frame to a ring if all of it fits. The status, the payload bytes accepted, and the ring. -/
def enqueuePacket (portIndex : Nat) (ring : Ring) (data : InBuffer) : Error × Nat × Ring :=
  if data.length = 0 then (.ok, 0, ring)
  else
    let frame := encodeSerialData portIndex data .valid maxEncodedByteCount
    if frame.length = 0 ∨ ring.capacity < ring.size + frame.length then (.ok, 0, ring)
    else
      let (written, ring) := ring.writeBytes frame
      if written ≠ frame.length then (.errorInvalidFrame, 0, ring) else (.ok, data.length, ring)

/-! ## Receiving -/

/-- The loop of `decodeRxFifoIntoReadQueue`. A turn takes bytes out of `rx_fifo`, so the bytes
buffered bound the turns. -/
def decodeRxFifoIntoReadQueueLoop (portIndex : Nat) : Nat → Port → Error × Port
  | 0, port => (.ok, port)
  | n + 1, port =>
    if port.rxFifo.hasCompleteFrame ∧ port.rxQueue.size < port.rxQueue.capacity then
      let (reply, rxFifo) := port.rxFifo.readFrame
      let port := { port with rxFifo := rxFifo }
      if reply.status ≠ .ok then (reply.status, port)
      else
        let decoded := decode portIndex reply.frame
        if decoded.status ≠ .ok then (decoded.status, port)
        else
          let (written, rxQueue) := port.rxQueue.writeBytes decoded.data
          let port := { port with rxQueue := rxQueue }
          if written ≠ decoded.data.length then (.errorInvalidFrame, port)
          else decodeRxFifoIntoReadQueueLoop portIndex n port
    else (.ok, port)

/-- `xr17v358_decode_rx_fifo_into_read_queue`. -/
def decodeRxFifoIntoReadQueue (portIndex : Nat) (port : Port) : Error × Port :=
  decodeRxFifoIntoReadQueueLoop portIndex port.rxFifo.size port

/-- `xr17v358_read_from_staged_rx`. -/
def readFromStagedRx (portIndex : Nat) (port : Port) (length : Nat) : Reply × Port :=
  let (error, port) := decodeRxFifoIntoReadQueue portIndex port
  if error ≠ .ok then (.code error, port)
  else if port.rxQueue.size = 0 ∧ 0 < port.rxFifo.size then (.code .errorInvalidFrame, port)
  else
    let (data, rxQueue) := port.rxQueue.readBytes length
    (.returned data, { port with rxQueue := rxQueue })

/-! ## Servicing the hardware FIFOs -/

/-- `xr17v358_stage_rx_bytes_from_hw`. -/
def stageRxBytesFromHw (m : DeviceMemory) (deviceBase : Nat) (p : PortIndex) (port : Port) :
    Error × Port × DeviceMemory :=
  let (bytesAvailable, m) := readFifoLevel m deviceBase p regRxlvl
  if bytesAvailable = 0 then (.ok, port, m)
  else
    let bytesToStage := port.rxFifo.capacity - port.rxFifo.size
    let bytesToStage := if bytesAvailable < bytesToStage then bytesAvailable else bytesToStage
    let bytesToStage := if fifoCapacity < bytesToStage then fifoCapacity else bytesToStage
    if bytesToStage = 0 then (.ok, port, m)
    else
      let (reply, m) := readRxFifo m deviceBase p ⟨.valid, bytesToStage⟩ .valid
      if reply.status ≠ .ok then (reply.status, port, m)
      else
        let (written, rxFifo) := port.rxFifo.writeBytes reply.data
        let port := { port with rxFifo := rxFifo }
        if written ≠ reply.data.length then (.errorInvalidFrame, port, m) else (.ok, port, m)

/-- `xr17v358_flush_tx_queue_to_hw`. -/
def flushTxQueueToHw (m : DeviceMemory) (deviceBase : Nat) (p : PortIndex) (port : Port) :
    Error × Port × DeviceMemory :=
  let (bytesAvailable, m) := readFifoLevel m deviceBase p regTxlvl
  if bytesAvailable = 0 ∨ port.txQueue.size = 0 then (.ok, port, m)
  else
    let bytesToWrite := port.txQueue.size
    let bytesToWrite := if bytesAvailable < bytesToWrite then bytesAvailable else bytesToWrite
    let bytesToWrite := if fifoCapacity < bytesToWrite then fifoCapacity else bytesToWrite
    let (frameBytes, txQueue) := port.txQueue.readBytes bytesToWrite
    let port := { port with txQueue := txQueue }
    if frameBytes.length = 0 then (.ok, port, m)
    else
      let (reply, m) := writeTxFifo m deviceBase p (.bytes frameBytes) .valid
      if reply.status ≠ .ok then (reply.status, port, m)
      else if reply.count ≠ some frameBytes.length then (.errorInvalidFrame, port, m)
      else (.ok, port, m)

/-! ## The modeled data paths -/

/-- `xr17v358_write`. -/
def write (d : Driver) (portIndex : Nat) (data : InBuffer) (bytesWritten : Ptr) :
    Reply × Driver :=
  d.onPort portIndex (.code .errorInvalidPort) fun p port =>
    if bytesWritten = .null ∨ data.missing then (.code .errorInvalidArgument, port)
    else
      let (error, written, txQueue) := enqueuePacket p port.txQueue data
      ({ status := error, count := some written }, { port with txQueue := txQueue })

/-- `xr17v358_read`. -/
def read (d : Driver) (portIndex : Nat) (data : OutBuffer) (bytesRead : Ptr) : Reply × Driver :=
  d.onPort portIndex (.code .errorInvalidPort) fun p port =>
    if bytesRead = .null ∨ data.missing then (.code .errorInvalidArgument, port)
    else readFromStagedRx p port data.length

/-- `xr17v358_poll_port`. -/
def pollPort (d : Driver) (portIndex : Nat) : Reply × Driver :=
  d.onPort portIndex (.code .errorInvalidPort) fun _ port =>
    let (error, port) := flushTxQueueToModeledFifo port
    if error ≠ .ok then (.code error, port)
    else
      let (error, port) := stageRxBytesFromPending port
      if error ≠ .ok then (.code error, port)
      else if port.rxFifo.hasCompleteFrame then (.code .messageReady, port)
      else (.code .messageNotReady, port)

/-! ## The hardware data paths -/

/-- `xr17v358_write_hw`. -/
def writeHw (d : Driver) (m : DeviceMemory) (deviceBase : Option Nat) (portIndex : Nat)
    (data : InBuffer) (bytesWritten : Ptr) : (Reply × DeviceMemory) × Driver :=
  d.onPort portIndex (.code .errorInvalidPort, m) fun p port =>
    match deviceBase with
    | none => ((.code .errorInvalidArgument, m), port)
    | some deviceBase =>
      if bytesWritten = .null ∨ data.missing then ((.code .errorInvalidArgument, m), port)
      else
        let (error, written, txQueue) := enqueuePacket p port.txQueue data
        let port := { port with txQueue := txQueue }
        -- An error or nothing accepted returns before the flush.
        if error ≠ .ok ∨ written = 0 then (({ status := error, count := some 0 }, m), port)
        else
          let (error, port, m) := flushTxQueueToHw m deviceBase p port
          if error ≠ .ok then (({ status := error, count := some 0 }, m), port)
          else ((.counted written, m), port)

/-- `xr17v358_read_hw`. -/
def readHw (d : Driver) (m : DeviceMemory) (deviceBase : Option Nat) (portIndex : Nat)
    (data : OutBuffer) (bytesRead : Ptr) : (Reply × DeviceMemory) × Driver :=
  d.onPort portIndex (.code .errorInvalidPort, m) fun p port =>
    match deviceBase with
    | none => ((.code .errorInvalidArgument, m), port)
    | some deviceBase =>
      if bytesRead = .null ∨ data.missing then ((.code .errorInvalidArgument, m), port)
      else
        let (error, port, m) := stageRxBytesFromHw m deviceBase p port
        if error ≠ .ok then ((.code error, m), port)
        else
          let (reply, port) := readFromStagedRx p port data.length
          ((reply, m), port)

/-- `xr17v358_poll_hw_port`. -/
def pollHwPort (d : Driver) (m : DeviceMemory) (deviceBase : Option Nat) (portIndex : Nat) :
    (Reply × DeviceMemory) × Driver :=
  d.onPort portIndex (.code .errorInvalidPort, m) fun p port =>
    match deviceBase with
    | none => ((.code .errorInvalidArgument, m), port)
    | some deviceBase =>
      let (error, port, m) := flushTxQueueToHw m deviceBase p port
      if error ≠ .ok then ((.code error, m), port)
      else
        let (error, port, m) := stageRxBytesFromHw m deviceBase p port
        if error ≠ .ok then ((.code error, m), port)
        else if port.rxFifo.hasCompleteFrame then ((.code .messageReady, m), port)
        else ((.code .messageNotReady, m), port)

/-! ## Configuration -/

/-- `xr17v358_initialize_port`. -/
def initializePort (d : Driver) (portIndex : Nat) (config : Option PortConfig) : Reply × Driver :=
  d.onPort portIndex (.code .errorInvalidPort) fun _ port =>
    let error := validatePortConfig config
    if error ≠ .ok then (.code error, port)
    else (.code .ok, { port with config := config.getD port.config })

/-- `xr17v358_get_port_config`. -/
def getPortConfig (d : Driver) (portIndex : Nat) (config : Ptr) : Reply × Driver :=
  d.onPort portIndex (.code .errorInvalidPort) fun _ port =>
    if config = .null then (.code .errorInvalidArgument, port)
    else ({ status := .ok, config := some port.config }, port)

/-- `xr17v358_inject_frame_bytes` into the ring that `buffer` selects and `replace` puts back. -/
def injectFrameBytes (buffer : Port → Ring) (replace : Port → Ring → Port) (d : Driver)
    (portIndex : Nat) (data : InBuffer) (bytesWritten : Ptr) : Reply × Driver :=
  d.onPort portIndex (.code .errorInvalidPort) fun _ port =>
    if bytesWritten = .null ∨ data.missing then (.code .errorInvalidArgument, port)
    else
      let (written, ring) := (buffer port).writeBytes data.toList
      (.counted written, replace port ring)

end Xr17v358
