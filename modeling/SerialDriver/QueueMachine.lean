import SerialDriver.FreshStart
import SerialDriver.RingRefinement
import SerialDriver.Lib.Machine

/-!
# The driver as queues of bytes

What the interface computes, without the rings that compute it: a port is five bounded byte queues
and a configuration, and a driver is a family of ports. There are no indices, no lazy
initialisation, no branches for short reads and writes, no words in the FIFO windows, and no fuel.

* `addPacket`, `nextFrame` — a packet goes in as its encoding, and comes out as a payload.
* `PortQueues.poll`, `PortQueues.read`, `PortQueues.flushHw`, `PortQueues.stageHw` — the data paths.
* `storeWindow`, `loadWindow` — the FIFO windows, a byte at a time.
* `DriverQueues.exec` — every call of the interface, and `queueMachine`, which takes them in turn.
-/

namespace Xr17v358

abbrev Queue := BoundedFifo UInt8

/-! ## Packets and frames in a queue -/

/-- A packet goes in whole, as its encoding, or not at all. The count is of payload bytes. -/
def addPacket (q : Queue) (data : List UInt8) : Nat × Queue :=
  if ValidPayload data ∧ (encode data).length ≤ q.room then (data.length, (q.push (encode data)).2)
  else (0, q)

/-- The first frame of a queue: its payload, or `none` for a frame that is malformed or too long. -/
def nextFrame (q : Queue) : Option (Option (List UInt8) × Queue) :=
  match h : receiver.step q.items with
  | none => none
  | some (item, rest) => some (item, q.shrink rest (receiver.step_length h).le)

theorem nextFrame_eq_none_iff {q : Queue} : nextFrame q = none ↔ receiver.step q.items = none := by
  unfold nextFrame
  split
  · next h => simp [h]
  · next h => simp [h]

theorem nextFrame_eq_some_iff {q q' : Queue} {item : Option (List UInt8)} :
    nextFrame q = some (item, q') ↔
      receiver.step q.items = some (item, q'.items) ∧ q'.capacity = q.capacity := by
  unfold nextFrame
  split
  · next h => simp [h]
  · next item' rest h =>
    constructor
    · intro hnext
      obtain ⟨rfl, rfl⟩ := Prod.mk.inj (Option.some.inj hnext)
      exact ⟨h, rfl⟩
    · rintro ⟨hstep, hcap⟩
      obtain ⟨rfl, rfl⟩ := Prod.mk.inj (Option.some.inj (h.symm.trans hstep))
      exact congrArg (fun q => some (item', q)) (BoundedFifo.ext hcap.symm rfl)

theorem length_nextFrame_lt {q q' : Queue} {item : Option (List UInt8)}
    (h : nextFrame q = some (item, q')) : q'.items.length < q.items.length :=
  receiver.step_length (nextFrame_eq_some_iff.1 h).1

/-- Decode frames off `fifo` onto `queue` until there is no frame or no room, a frame is malformed,
or a payload does not fit. -/
def decodeFrames (fifo queue : Queue) : Error × Queue × Queue :=
  if queue.room = 0 then (.ok, fifo, queue)
  else
    match _h : nextFrame fifo with
    | none => (.ok, fifo, queue)
    | some (none, fifo') => (.errorInvalidFrame, fifo', queue)
    | some (some data, fifo') =>
      if queue.room < data.length then (.errorInvalidFrame, fifo', (queue.push data).2)
      else decodeFrames fifo' (queue.push data).2
termination_by fifo.items.length
decreasing_by exact length_nextFrame_lt _h

theorem decodeFrames_eq (fifo queue : Queue) :
    decodeFrames fifo queue =
      if queue.room = 0 then (.ok, fifo, queue)
      else
        match nextFrame fifo with
        | none => (.ok, fifo, queue)
        | some (none, fifo') => (.errorInvalidFrame, fifo', queue)
        | some (some data, fifo') =>
          if queue.room < data.length then (.errorInvalidFrame, fifo', (queue.push data).2)
          else decodeFrames fifo' (queue.push data).2 := by
  rw [decodeFrames]
  split_ifs
  · rfl
  · split
    · next h => rw [h]
    · next h => rw [h]
    · next h => rw [h]

/-- Take packets out of `fifo` into a buffer of `length` bytes, `out` being those copied so far. -/
def takePackets (length : Nat) (fifo : Queue) (out : List UInt8) : Reply × Queue :=
  if out.length < length then
    match _h : nextFrame fifo with
    | none => (.returned out, fifo)
    | some (none, fifo') => ({ status := .errorInvalidFrame, data := out }, fifo')
    | some (some data, fifo') =>
      if length - out.length < data.length then
        ({ status := .errorInvalidArgument, data := out }, fifo')
      else takePackets length fifo' (out ++ data)
  else (.returned out, fifo)
termination_by fifo.items.length
decreasing_by exact length_nextFrame_lt _h

theorem takePackets_eq (length : Nat) (fifo : Queue) (out : List UInt8) :
    takePackets length fifo out =
      if out.length < length then
        match nextFrame fifo with
        | none => (.returned out, fifo)
        | some (none, fifo') => ({ status := .errorInvalidFrame, data := out }, fifo')
        | some (some data, fifo') =>
          if length - out.length < data.length then
            ({ status := .errorInvalidArgument, data := out }, fifo')
          else takePackets length fifo' (out ++ data)
      else (.returned out, fifo) := by
  rw [takePackets]
  split_ifs
  · split
    · next h => rw [h]
    · next h => rw [h]
    · next h => rw [h]
  · rfl

theorem length_readFrame_le (frameCapacity : Nat) (s : List UInt8) :
    (readFrame frameCapacity s).2.length ≤ s.length := length_readFrameFrom_le frameCapacity s []

/-- Move the first frame of a queue to another that has room for the longest frame. -/
def transferNext (source destination : Queue) : Error × Queue × Queue :=
  if frameCount source.items = 0 then (.errorInvalidFrame, source, destination)
  else if frameCount destination.items < fifoCapacity ∧
      destination.items.length + maxEncodedByteCount ≤ destination.capacity then
    let reply := (readFrame maxEncodedByteCount source.items).1
    let source := source.shrink (readFrame maxEncodedByteCount source.items).2
      (length_readFrame_le ..)
    if reply.status ≠ .ok then (reply.status, source, destination)
    else (.ok, source, (destination.push reply.frame).2)
  else (.errorInvalidFrame, source, destination)

/-! ## Ports -/

structure PortQueues where
  txFifo : Queue
  rxFifo : Queue
  rxPending : Queue
  txQueue : Queue
  rxQueue : Queue
  config : PortConfig

namespace PortQueues

def fresh : PortQueues where
  txFifo := .empty ringBufferStorageCapacity
  rxFifo := .empty ringBufferStorageCapacity
  rxPending := .empty ringBufferStorageCapacity
  txQueue := .empty ringBufferStorageCapacity
  rxQueue := .empty ringBufferStorageCapacity
  config := defaultPortConfig

/-- What a poll reports. -/
def readiness (q : PortQueues) : Reply :=
  .code (if 2 ≤ q.rxFifo.items.count frameDelimiter then .messageReady else .messageNotReady)

/-- Decode what is buffered, and hand out the front of what is decoded. -/
def read (q : PortQueues) (length : Nat) : Reply × PortQueues :=
  let (error, rxFifo, rxQueue) := decodeFrames q.rxFifo q.rxQueue
  let q := { q with rxFifo := rxFifo, rxQueue := rxQueue }
  if error ≠ .ok then (.code error, q)
  else if rxQueue.items = [] ∧ rxFifo.items ≠ [] then (.code .errorInvalidFrame, q)
  else (.returned (rxQueue.pop length).1, { q with rxQueue := (rxQueue.pop length).2 })

/-- Move one service step's worth in each direction. -/
def poll (q : PortQueues) : PortQueues :=
  let (txQueue, txFifo) := q.txQueue.move q.txFifo fifoCapacity
  let (rxPending, rxFifo) := q.rxPending.move q.rxFifo fifoCapacity
  { q with txFifo := txFifo, rxFifo := rxFifo, rxPending := rxPending, txQueue := txQueue }

variable (m : DeviceMemory) (deviceBase : Nat) (p : PortIndex)

/-- Store the front of `txQueue` in the FIFO window, as much as the device reports room for. -/
def flushHw (q : PortQueues) : PortQueues × DeviceMemory :=
  let (level, m) := m.read8 (registerAddress deviceBase p regTxlvl)
  let (bytes, txQueue) := q.txQueue.pop level.toNat
  ({ q with txQueue := txQueue }, m.store (fifoAddress deviceBase p) bytes)

/-- Load what fits `rxFifo` from the FIFO window. The device is asked a second time how much it has
unless the first answer leaves nothing to do. -/
def stageHw (q : PortQueues) : PortQueues × DeviceMemory :=
  let (level, m) := m.read8 (registerAddress deviceBase p regRxlvl)
  let count := min q.rxFifo.room level.toNat
  if count = 0 then (q, m)
  else
    let (level, m) := m.read8 (registerAddress deviceBase p regRxlvl)
    let (bytes, m) := m.load (fifoAddress deviceBase p) (min count level.toNat)
    ({ q with rxFifo := (q.rxFifo.push bytes).2 }, m)

end PortQueues

/-! ## The FIFO windows -/

/-- Store the front of the data in the FIFO window byte by byte, no more than a FIFO holds. -/
def storeWindow (m : DeviceMemory) (deviceBase : Option Nat) (portIndex : Nat) (data : InBuffer)
    (bytesWritten : Ptr) : Reply × DeviceMemory :=
  match deviceBase with
  | none => (.code .errorInvalidArgument, m)
  | some deviceBase =>
    if bytesWritten = .null ∨ data.missing then (.code .errorInvalidArgument, m)
    else if h : portIndex < getPortCount then
      let count := min fifoCapacity data.length
      (.counted count, m.store (fifoAddress deviceBase ⟨portIndex, h⟩) (data.toList.take count))
    else (.code .errorInvalidPort, m)

/-- Load what the device reports and the buffer holds from the FIFO window, byte by byte. -/
def loadWindow (m : DeviceMemory) (deviceBase : Option Nat) (portIndex : Nat) (data : OutBuffer)
    (bytesRead : Ptr) : Reply × DeviceMemory :=
  match deviceBase with
  | none => (.code .errorInvalidArgument, m)
  | some deviceBase =>
    if bytesRead = .null ∨ data.missing then (.code .errorInvalidArgument, m)
    else if h : portIndex < getPortCount then
      let (level, m) := m.read8 (registerAddress deviceBase ⟨portIndex, h⟩ regRxlvl)
      let (bytes, m) :=
        m.load (fifoAddress deviceBase ⟨portIndex, h⟩) (min data.length level.toNat)
      (.returned bytes, m)
    else (.code .errorInvalidPort, m)

/-! ## The interface -/

abbrev DriverQueues := PortIndex → PortQueues

namespace DriverQueues

def onPort {α : Type} (q : DriverQueues) (portIndex : Nat) (rejected : α)
    (body : PortIndex → PortQueues → α × PortQueues) : α × DriverQueues :=
  if h : portIndex < getPortCount then
    let (out, port) := body ⟨portIndex, h⟩ (q ⟨portIndex, h⟩)
    (out, Function.update q ⟨portIndex, h⟩ port)
  else (rejected, q)

theorem onPort_fst {α : Type} {q : DriverQueues} {p : PortIndex} {rejected : α}
    {body : PortIndex → PortQueues → α × PortQueues} :
    (q.onPort p rejected body).1 = (body p (q p)).1 := by
  rw [onPort, dif_pos p.isLt]

theorem onPort_snd {α : Type} {q : DriverQueues} {portIndex : Nat} {rejected : α}
    {body : PortIndex → PortQueues → α × PortQueues} (p : PortIndex) :
    (q.onPort portIndex rejected body).2 p =
      if portIndex = p then (body p (q p)).2 else q p := by
  unfold onPort
  by_cases h : portIndex < getPortCount
  · rw [dif_pos h]
    by_cases hp : portIndex = p
    · subst hp
      simp
    · have hne : p ≠ ⟨portIndex, h⟩ := fun he => hp (by rw [he])
      rw [if_neg hp]
      exact Function.update_of_ne hne ..
  · have hp : portIndex ≠ p := fun he => h (by rw [he]; exact p.isLt)
    rw [dif_neg h, if_neg hp]

/-- Add bytes or a packet with valid arguments, and report how much went in. -/
def adding (data : InBuffer) (ptr : Ptr) (add : PortQueues → Nat × PortQueues) (q : PortQueues) :
    Reply × PortQueues :=
  if ptr = .null ∨ data.missing then (.code .errorInvalidArgument, q)
  else
    let (count, q) := add q
    (.counted count, q)

def initializePort (q : DriverQueues) (portIndex : Nat) (config : Option PortConfig) :
    Reply × DriverQueues :=
  q.onPort portIndex (.code .errorInvalidPort) fun _ port =>
    match config with
    | none => (.code .errorInvalidArgument, port)
    | some config =>
      if validatePortConfig config = .ok then (.code .ok, { port with config := config })
      else (.code .errorInvalidArgument, port)

def getPortConfig (q : DriverQueues) (portIndex : Nat) (config : Ptr) : Reply × DriverQueues :=
  q.onPort portIndex (.code .errorInvalidPort) fun _ port =>
    if config = .null then (.code .errorInvalidArgument, port)
    else ({ status := .ok, config := some port.config }, port)

def write (q : DriverQueues) (portIndex : Nat) (data : InBuffer) (bytesWritten : Ptr) :
    Reply × DriverQueues :=
  q.onPort portIndex (.code .errorInvalidPort) fun _ => adding data bytesWritten fun port =>
    let (count, txQueue) := addPacket port.txQueue data.toList
    (count, { port with txQueue := txQueue })

def receive (q : DriverQueues) (portIndex : Nat) (data : InBuffer) (bytesReceived : Ptr) :
    Reply × DriverQueues :=
  q.onPort portIndex (.code .errorInvalidPort) fun _ => adding data bytesReceived fun port =>
    let (count, rxPending) := addPacket port.rxPending data.toList
    (count, { port with rxPending := rxPending })

def injectRx (q : DriverQueues) (portIndex : Nat) (data : InBuffer) (bytesWritten : Ptr) :
    Reply × DriverQueues :=
  q.onPort portIndex (.code .errorInvalidPort) fun _ => adding data bytesWritten fun port =>
    let (count, rxFifo) := port.rxFifo.push data.toList
    (count, { port with rxFifo := rxFifo })

def injectTx (q : DriverQueues) (portIndex : Nat) (data : InBuffer) (bytesWritten : Ptr) :
    Reply × DriverQueues :=
  q.onPort portIndex (.code .errorInvalidPort) fun _ => adding data bytesWritten fun port =>
    let (count, txFifo) := port.txFifo.push data.toList
    (count, { port with txFifo := txFifo })

def read (q : DriverQueues) (portIndex : Nat) (data : OutBuffer) (bytesRead : Ptr) :
    Reply × DriverQueues :=
  q.onPort portIndex (.code .errorInvalidPort) fun _ port =>
    if bytesRead = .null ∨ data.missing then (.code .errorInvalidArgument, port)
    else port.read data.length

def pollPort (q : DriverQueues) (portIndex : Nat) : Reply × DriverQueues :=
  q.onPort portIndex (.code .errorInvalidPort) fun _ port => (port.poll.readiness, port.poll)

def fifoLevel (q : DriverQueues) (portIndex : Nat) : Nat × DriverQueues :=
  q.onPort portIndex 0 fun _ port => (frameCount port.rxFifo.items, port)

def queueSize (q : DriverQueues) (portIndex : Nat) : Nat × DriverQueues :=
  q.onPort portIndex 0 fun _ port => (frameCount port.txFifo.items, port)

def transferNextTxFrame (q : DriverQueues) (portIndex : Nat) : Reply × DriverQueues :=
  q.onPort portIndex (.code .errorInvalidPort) fun _ port =>
    let (error, txQueue, txFifo) := transferNext port.txQueue port.txFifo
    (.code error, { port with txQueue := txQueue, txFifo := txFifo })

def queueRead (q : DriverQueues) (portIndex : Nat) (data : OutBuffer) (bytesRead : Ptr) :
    Reply × DriverQueues :=
  q.onPort portIndex (.code .errorInvalidPort) fun _ port =>
    if bytesRead = .null ∨ data.missing then (.code .errorInvalidArgument, port)
    else
      let (reply, txFifo) := takePackets data.length port.txFifo []
      (reply, { port with txFifo := txFifo })

/-- A packet that does not go in leaves the device alone. -/
def writeHw (q : DriverQueues) (m : DeviceMemory) (deviceBase : Option Nat) (portIndex : Nat)
    (data : InBuffer) (bytesWritten : Ptr) : (Reply × DeviceMemory) × DriverQueues :=
  q.onPort portIndex (.code .errorInvalidPort, m) fun p port =>
    match deviceBase with
    | none => ((.code .errorInvalidArgument, m), port)
    | some deviceBase =>
      if bytesWritten = .null ∨ data.missing then ((.code .errorInvalidArgument, m), port)
      else
        let (count, txQueue) := addPacket port.txQueue data.toList
        let port := { port with txQueue := txQueue }
        if count = 0 then ((.counted 0, m), port)
        else
          let (port, m) := port.flushHw m deviceBase p
          ((.counted count, m), port)

def readHw (q : DriverQueues) (m : DeviceMemory) (deviceBase : Option Nat) (portIndex : Nat)
    (data : OutBuffer) (bytesRead : Ptr) : (Reply × DeviceMemory) × DriverQueues :=
  q.onPort portIndex (.code .errorInvalidPort, m) fun p port =>
    match deviceBase with
    | none => ((.code .errorInvalidArgument, m), port)
    | some deviceBase =>
      if bytesRead = .null ∨ data.missing then ((.code .errorInvalidArgument, m), port)
      else
        let (port, m) := port.stageHw m deviceBase p
        let (reply, port) := port.read data.length
        ((reply, m), port)

def pollHwPort (q : DriverQueues) (m : DeviceMemory) (deviceBase : Option Nat) (portIndex : Nat) :
    (Reply × DeviceMemory) × DriverQueues :=
  q.onPort portIndex (.code .errorInvalidPort, m) fun p port =>
    match deviceBase with
    | none => ((.code .errorInvalidArgument, m), port)
    | some deviceBase =>
      let (port, m) := port.flushHw m deviceBase p
      let (port, m) := port.stageHw m deviceBase p
      ((port.readiness, m), port)

/-- Perform a call. The addresses and the modem control registers are the driver's own. -/
def exec (q : DriverQueues) (m : DeviceMemory) : Call → Reply × DriverQueues × DeviceMemory
  | .initializePort portIndex config => modeled (q.initializePort portIndex config)
  | .getPortConfig portIndex config => modeled (q.getPortConfig portIndex config)
  | .getUartBase portIndex uartBase => (getUartBase portIndex uartBase, q, m)
  | .getTxFifoBase portIndex fifoBase => (getTxFifoBase portIndex fifoBase, q, m)
  | .write portIndex data bytesWritten => modeled (q.write portIndex data bytesWritten)
  | .read portIndex data bytesRead => modeled (q.read portIndex data bytesRead)
  | .pollPort portIndex => modeled (q.pollPort portIndex)
  | .writeTxFifo deviceBase portIndex data bytesWritten =>
    direct (storeWindow m deviceBase portIndex data bytesWritten)
  | .readRxFifo deviceBase portIndex data bytesRead =>
    direct (loadWindow m deviceBase portIndex data bytesRead)
  | .writeHw deviceBase portIndex data bytesWritten =>
    hardware (q.writeHw m deviceBase portIndex data bytesWritten)
  | .readHw deviceBase portIndex data bytesRead =>
    hardware (q.readHw m deviceBase portIndex data bytesRead)
  | .pollHwPort deviceBase portIndex => hardware (q.pollHwPort m deviceBase portIndex)
  | .setDiscrete deviceBase portIndex asserted =>
    direct (setDiscrete m deviceBase portIndex asserted)
  | .setLoopback deviceBase portIndex enabled =>
    direct (setLoopback m deviceBase portIndex enabled)
  | .resetState | .reset => (.code .ok, fun _ => .fresh, m)
  | .fifoLevel portIndex => counter (q.fifoLevel portIndex)
  | .queueSize portIndex => counter (q.queueSize portIndex)
  | .receive portIndex data bytesReceived => modeled (q.receive portIndex data bytesReceived)
  | .injectRxFrameBytes portIndex data bytesWritten =>
    modeled (q.injectRx portIndex data bytesWritten)
  | .injectTxFrameBytes portIndex data bytesWritten
  | .injectQueueFrameBytes portIndex data bytesWritten =>
    modeled (q.injectTx portIndex data bytesWritten)
  | .transferNextTxFrame portIndex => modeled (q.transferNextTxFrame portIndex)
  | .queueRead portIndex data bytesRead => modeled (q.queueRead portIndex data bytesRead)
where
  modeled (out : Reply × DriverQueues) : Reply × DriverQueues × DeviceMemory := (out.1, out.2, m)
  direct (out : Reply × DeviceMemory) : Reply × DriverQueues × DeviceMemory := (out.1, q, out.2)
  hardware (out : (Reply × DeviceMemory) × DriverQueues) : Reply × DriverQueues × DeviceMemory :=
    (out.1.1, out.2, out.1.2)
  counter (out : Nat × DriverQueues) : Reply × DriverQueues × DeviceMemory :=
    (.counted out.1, out.2, m)

end DriverQueues

/-- The queues and the device. An input is what the device does to its memory before a call, and
the call; the answer is the reply and the memory the call leaves. -/
def queueMachine : Machine (DriverQueues × DeviceMemory)
    ((DeviceMemory → DeviceMemory) × Call) (Reply × DeviceMemory) where
  step s i :=
    let (reply, q, m) := s.1.exec (i.1 s.2) i.2
    ((reply, m), (q, m))

end Xr17v358
