import SerialDriver.Staging
import SerialDriver.Lib.CheckedBuffer

/-!
# Moving bytes through a local array

`transferRingBytes`, `stageRxBytesFromHw` and `flushTxQueueToHw` pass their bytes through an array of
256 on the stack. Here they are once more with that array: one function fills it and the next
reads it, by index, and an access outside it gives `none`. Whatever the rings hold and the level
registers say, all accesses are inside, and the functions do what the list versions do
(`transferRingBytes_checked`, `stageRxBytesFromHw_checked`, `flushTxQueueToHw_checked`).
-/

namespace Xr17v358.Checked

variable {c : Nat}

/-! ## Between a ring and an array -/

/-- `xr17v358_ring_read_bytes` from its index `i` on, with `length` bytes to go: the C function's
result, the array and the ring. -/
def ringReadBytes (rb : RingBuffer) (data : CheckedBuffer UInt8 c) (i : Nat) :
    (length : Nat) → Option (Nat × CheckedBuffer UInt8 c × RingBuffer)
  | 0 => some (i, data, rb)
  | length + 1 =>
    if 0 < rb.size then do
      let byte ← rb.load rb.head
      let data ← data.store i byte
      let head ← rb.wrap (rb.head + 1)
      ringReadBytes { rb with head := head, size := rb.size - 1 } data (i + 1) length
    else some (i, data, rb)

/-- `xr17v358_ring_write_bytes` from its index `i` on, with `length` bytes to go. -/
def ringWriteBytes (rb : RingBuffer) (data : CheckedBuffer UInt8 c) (i : Nat) :
    (length : Nat) → Option (Nat × RingBuffer)
  | 0 => some (i, rb)
  | length + 1 =>
    if rb.size < rb.capacity then do
      let byte ← data.load i
      let rb ← rb.store rb.tail byte
      let tail ← rb.wrap (rb.tail + 1)
      ringWriteBytes { rb with tail := tail, size := rb.size + 1 } data (i + 1) length
    else some (i, rb)

theorem ringReadBytes_filled (buffer : CheckedBuffer UInt8 c) (rb : RingBuffer)
    (stored : List UInt8) {length : Nat} (hfit : stored.length + length ≤ c) :
    ringReadBytes rb (buffer.filled stored) stored.length length =
      (Xr17v358.ringReadBytes rb length).map fun out =>
        (stored.length + out.1.length, buffer.filled (stored ++ out.1), out.2) := by
  induction length generalizing rb stored with
  | zero => simp [ringReadBytes, Xr17v358.ringReadBytes]
  | succ length ih =>
    rw [ringReadBytes, Xr17v358.ringReadBytes]
    split_ifs
    · rcases rb.load rb.head with _ | byte
      · rfl
      rw [Option.bind_eq_bind, Option.bind_some, buffer.store_filled (by omega)]
      rcases rb.wrap (rb.head + 1) with _ | head
      · rfl
      have hrest := ih { rb with head := head, size := rb.size - 1 } (stored ++ [byte]) (by
        rw [List.length_append, List.length_singleton]
        omega)
      rw [List.length_append, List.length_singleton] at hrest
      simp only [Option.bind_eq_bind, Option.bind_some, Option.pure_def, hrest]
      rcases Xr17v358.ringReadBytes _ length with _ | ⟨data, rb'⟩
      · rfl
      · simp [Nat.add_assoc, Nat.add_comm 1]
    · simp

theorem ringWriteBytes_filled (buffer : CheckedBuffer UInt8 c) (rb : RingBuffer)
    (passed data : List UInt8) (hfit : passed.length + data.length ≤ c) :
    ringWriteBytes rb (buffer.filled (passed ++ data)) passed.length data.length =
      (Xr17v358.ringWriteBytes rb data).map fun out => (passed.length + out.1, out.2) := by
  induction data generalizing rb passed with
  | nil => rfl
  | cons byte data ih =>
    rw [List.length_cons] at hfit ⊢
    rw [ringWriteBytes, Xr17v358.ringWriteBytes]
    split_ifs
    · rw [buffer.load_filled_append rfl (by omega), Option.bind_eq_bind,
        Option.bind_some]
      rcases rb.store rb.tail byte with _ | rb
      · rfl
      simp only [Option.bind_eq_bind, Option.bind_some]
      rcases rb.wrap (rb.tail + 1) with _ | tail
      · rfl
      have hrest := ih { rb with tail := tail, size := rb.size + 1 } (passed ++ [byte]) (by
        rw [List.length_append, List.length_singleton]
        omega)
      rw [List.length_append, List.length_singleton, List.append_assoc, List.singleton_append]
        at hrest
      simp only [Option.bind_some, Option.pure_def, hrest]
      rcases Xr17v358.ringWriteBytes _ data with _ | ⟨i, rb'⟩
      · rfl
      · simp [Nat.add_assoc, Nat.add_comm 1]
    · rfl

/-! ## Between two rings -/

/-- `bytes` is the local array. -/
def transferRingBytes (bytes : CheckedBuffer UInt8 c) (source destination : RingBuffer)
    (maxBytes : Nat) : Option (Error × RingBuffer × RingBuffer) :=
  let bytesToMove := source.size
  let bytesToMove := if maxBytes < bytesToMove then maxBytes else bytesToMove
  let bytesToMove :=
    if destination.capacity - destination.size < bytesToMove then
      destination.capacity - destination.size
    else bytesToMove
  if bytesToMove = 0 then some (.ok, source, destination)
  else do
    let (bytesMoved, bytes, source) ← ringReadBytes source bytes 0 bytesToMove
    if bytesMoved ≠ bytesToMove then return (.errorInvalidFrame, source, destination)
    let (written, destination) ← ringWriteBytes destination bytes 0 bytesToMove
    if written ≠ bytesToMove then return (.errorInvalidFrame, source, destination)
    return (.ok, source, destination)

/-- Reading a ring into an empty array. -/
theorem ringReadBytes_run (buffer : CheckedBuffer UInt8 c) (r : Ring) {length : Nat}
    (hfit : length ≤ c) :
    ringReadBytes r.1 buffer 0 length =
      some ((r.readBytes length).1.length, buffer.filled (r.readBytes length).1,
        (r.readBytes length).2.1) := by
  have hrun := ringReadBytes_filled buffer r.1 [] (by simpa using hfit)
  rw [CheckedBuffer.filled_nil, r.readBytes_run] at hrun
  simpa using hrun

/-- Writing a ring from an array that holds `data`. -/
theorem ringWriteBytes_run (buffer : CheckedBuffer UInt8 c) (r : Ring) {data : List UInt8}
    (hfit : data.length ≤ c) :
    ringWriteBytes r.1 (buffer.filled data) 0 data.length =
      some ((r.writeBytes data).1, (r.writeBytes data).2.1) := by
  have hrun := ringWriteBytes_filled buffer r.1 [] data (by simpa using hfit)
  rw [r.writeBytes_run] at hrun
  simpa using hrun

theorem transferRingBytes_checked (buffer : CheckedBuffer UInt8 c) (source destination : Ring)
    {maxBytes : Nat} (hmax : maxBytes ≤ c) :
    transferRingBytes buffer source.1 destination.1 maxBytes =
      some ((Xr17v358.transferRingBytes source destination maxBytes).1,
        (Xr17v358.transferRingBytes source destination maxBytes).2.1.1,
        (Xr17v358.transferRingBytes source destination maxBytes).2.2.1) := by
  have hsource : source.1.size = source.contents.length := source.size_eq
  have hle : transferCount source destination maxBytes ≤ maxBytes :=
    (min_le_right _ _).trans (min_le_left _ _)
  rw [transferRingBytes_eq, transferRingBytes]
  simp only [hsource, Ring.capacity_sub_size, ← min_def_lt, clamp_transferCount]
  by_cases hzero : transferCount source destination maxBytes = 0
  · rw [if_pos hzero, hzero, Ring.readBytes_zero, List.take_zero, Ring.writeBytes_nil]
  · have hlength : (source.contents.take (transferCount source destination maxBytes)).length =
        transferCount source destination maxBytes := List.length_take_of_le (min_le_left ..)
    have hroom := transferCount_le_room source destination maxBytes
    have hread := ringReadBytes_run buffer source (hle.trans hmax)
    have hwrite := ringWriteBytes_run buffer destination (hlength.trans_le (hle.trans hmax))
    rw [Ring.readBytes_fst, hlength] at hread
    rw [hlength, Ring.writeBytes_fst, hlength, Nat.min_eq_left hroom] at hwrite
    simp [hzero, hread, hwrite]

/-! ## Between the device and an array -/

/-- The byte loop of `xr17v358_read_rx_fifo` from its index `i` on, with `count` bytes to go. -/
def readFifoBytes (m : DeviceMemory) (addr : Nat) (data : CheckedBuffer UInt8 c) (i : Nat) :
    (count : Nat) → Option (CheckedBuffer UInt8 c × DeviceMemory)
  | 0 => some (data, m)
  | count + 1 => do
    let (byte, m) := m.read8 (addr + i)
    let data ← data.store i byte
    readFifoBytes m addr data (i + 1) count

/-- Its two loops: whole words, then the remaining bytes. -/
def readFifoWindow (m : DeviceMemory) (addr : Nat) (data : CheckedBuffer UInt8 c) (i : Nat) :
    (count : Nat) → Option (CheckedBuffer UInt8 c × DeviceMemory)
  | count + 4 => do
    let (word, m) := m.read32 (addr + i)
    let data ← data.store i (word &&& 0xFF).toUInt8
    let data ← data.store (i + 1) ((word >>> 8) &&& 0xFF).toUInt8
    let data ← data.store (i + 2) ((word >>> 16) &&& 0xFF).toUInt8
    let data ← data.store (i + 3) ((word >>> 24) &&& 0xFF).toUInt8
    readFifoWindow m addr data (i + 4) count
  | count => readFifoBytes m addr data i count

/-- `xr17v358_read_rx_fifo` into an array: the status, the value of `bytes_read` afterwards, which
the caller has set to 0, the array and the device. -/
def readRxFifo (m : DeviceMemory) (deviceBase : Option Nat) (portIndex : Nat)
    (data : CheckedBuffer UInt8 c) (length : Nat) :
    Option (Error × Nat × CheckedBuffer UInt8 c × DeviceMemory) :=
  match deviceBase with
  | none => some (.errorInvalidArgument, 0, data, m)
  | some deviceBase =>
    if h : portIndex < getPortCount then do
      let (available, m) := readFifoLevel m deviceBase ⟨portIndex, h⟩ regRxlvl
      let count := if available < length then available else length
      let count := if fifoCapacity < count then fifoCapacity else count
      let (data, m) ← readFifoWindow m (fifoAddress deviceBase ⟨portIndex, h⟩) data 0 count
      return (.ok, count, data, m)
    else some (.errorInvalidPort, 0, data, m)

/-- The byte loop of `xr17v358_write_tx_fifo` from its index `i` on, with `count` bytes to go. -/
def writeFifoBytes (m : DeviceMemory) (addr : Nat) (data : CheckedBuffer UInt8 c) (i : Nat) :
    (count : Nat) → Option DeviceMemory
  | 0 => some m
  | count + 1 => do
    let byte ← data.load i
    writeFifoBytes (m.write8 (addr + i) byte) addr data (i + 1) count

/-- Its two loops: whole words, then the remaining bytes. -/
def writeFifoWindow (m : DeviceMemory) (addr : Nat) (data : CheckedBuffer UInt8 c) (i : Nat) :
    (count : Nat) → Option DeviceMemory
  | count + 4 => do
    let b₀ ← data.load i
    let b₁ ← data.load (i + 1)
    let b₂ ← data.load (i + 2)
    let b₃ ← data.load (i + 3)
    writeFifoWindow (m.write32 (addr + i) (packWord b₀ b₁ b₂ b₃)) addr data (i + 4) count
  | count => writeFifoBytes m addr data i count

/-- `xr17v358_write_tx_fifo` from an array: the status, the value of `bytes_written` afterwards, which
the caller has set to 0, and the device. -/
def writeTxFifo (m : DeviceMemory) (deviceBase : Option Nat) (portIndex : Nat)
    (data : CheckedBuffer UInt8 c) (length : Nat) : Option (Error × Nat × DeviceMemory) :=
  match deviceBase with
  | none => some (.errorInvalidArgument, 0, m)
  | some deviceBase =>
    if h : portIndex < getPortCount then do
      let count := if fifoCapacity < length then fifoCapacity else length
      let m ← writeFifoWindow m (fifoAddress deviceBase ⟨portIndex, h⟩) data 0 count
      return (.ok, count, m)
    else some (.errorInvalidPort, 0, m)

theorem readFifoBytes_filled (buffer : CheckedBuffer UInt8 c) (m : DeviceMemory) (addr : Nat)
    (stored : List UInt8) {count : Nat} (hfit : stored.length + count ≤ c) :
    readFifoBytes m addr (buffer.filled stored) stored.length count =
      some (buffer.filled (stored ++ (m.load (addr + stored.length) count).1),
        (m.load (addr + stored.length) count).2) := by
  induction count generalizing m stored with
  | zero => simp [readFifoBytes, DeviceMemory.load]
  | succ count ih =>
    have hrest := ih (m.read8 (addr + stored.length)).2
      (stored ++ [(m.read8 (addr + stored.length)).1]) (by
        rw [List.length_append, List.length_singleton]
        omega)
    rw [List.length_append, List.length_singleton, List.append_assoc, List.singleton_append,
      ← Nat.add_assoc] at hrest
    rw [readFifoBytes]
    simp only [buffer.store_filled (show stored.length < c by omega), Option.bind_eq_bind,
      Option.bind_some, hrest]
    rfl

/-- One turn of the word loop stores the four bytes of a word. -/
theorem readFifoWindow_word (buffer : CheckedBuffer UInt8 c) (m : DeviceMemory) (addr : Nat)
    (stored : List UInt8) (hfit : stored.length + 4 ≤ c) (count : Nat) :
    readFifoWindow m addr (buffer.filled stored) stored.length (count + 4) =
      readFifoWindow (m.read32 (addr + stored.length)).2 addr
        (buffer.filled (stored ++ unpackWord (m.read32 (addr + stored.length)).1))
        (stored.length + 4) count := by
  have hstore : ∀ (bytes : List UInt8) (k : Nat), bytes.length = k → k < 4 → ∀ byte,
      (buffer.filled (stored ++ bytes)).store (stored.length + k) byte =
        some (buffer.filled (stored ++ (bytes ++ [byte]))) := by
    intro bytes k hbytes hk byte
    rw [buffer.store_filled_at (by rw [List.length_append, hbytes]) (by omega), List.append_assoc]
  rw [readFifoWindow]
  simp only [Option.bind_eq_bind]
  rw [buffer.store_filled (by omega), Option.bind_some, hstore _ 1 rfl (by omega),
    Option.bind_some, hstore _ 2 rfl (by omega), Option.bind_some, hstore _ 3 rfl (by omega),
    Option.bind_some]
  rfl

theorem readFifoWindow_filled (buffer : CheckedBuffer UInt8 c) (m : DeviceMemory) (addr : Nat)
    (stored : List UInt8) {count : Nat} (hfit : stored.length + count ≤ c) :
    readFifoWindow m addr (buffer.filled stored) stored.length count =
      some (buffer.filled (stored ++ (m.load (addr + stored.length) count).1),
        (m.load (addr + stored.length) count).2) := by
  induction count using Nat.strong_induction_on generalizing m stored with
  | _ count ih =>
    match count with
    | count + 4 =>
      obtain ⟨hbytes, hmemory⟩ := Prod.ext_iff.1 (m.read32_eq (addr + stored.length))
      have hrest := ih count (by omega) (m.read32 (addr + stored.length)).2
        (stored ++ unpackWord (m.read32 (addr + stored.length)).1) (by
          rw [List.length_append]
          exact (show stored.length + 4 + count ≤ c by omega))
      rw [readFifoWindow_word buffer m addr stored (by omega), Nat.add_comm count 4,
        DeviceMemory.load_add, ← hbytes, ← hmemory, ← List.append_assoc]
      rw [List.length_append, show (unpackWord _).length = 4 from rfl, ← Nat.add_assoc] at hrest
      exact hrest
    | 0 | 1 | 2 | 3 => exact readFifoBytes_filled buffer m addr stored hfit

theorem writeFifoBytes_filled (buffer : CheckedBuffer UInt8 c) (m : DeviceMemory) (addr : Nat)
    (passed data : List UInt8) (hfit : passed.length + data.length ≤ c) :
    writeFifoBytes m addr (buffer.filled (passed ++ data)) passed.length data.length =
      some (m.store (addr + passed.length) data) := by
  induction data generalizing m passed with
  | nil => rfl
  | cons byte data ih =>
    rw [List.length_cons] at hfit ⊢
    have hrest := ih (m.write8 (addr + passed.length) byte) (passed ++ [byte]) (by
      rw [List.length_append, List.length_singleton]
      omega)
    rw [List.length_append, List.length_singleton, List.append_assoc, List.singleton_append,
      ← Nat.add_assoc] at hrest
    rw [writeFifoBytes, buffer.load_filled_append rfl (by omega)]
    exact hrest

/-- One turn of the word loop reads four bytes and writes them as a word. -/
theorem writeFifoWindow_word (buffer : CheckedBuffer UInt8 c) (m : DeviceMemory) (addr : Nat)
    (passed data : List UInt8) (b₀ b₁ b₂ b₃ : UInt8) (hfit : passed.length + 4 ≤ c)
    (count : Nat) :
    writeFifoWindow m addr (buffer.filled (passed ++ b₀ :: b₁ :: b₂ :: b₃ :: data)) passed.length
        (count + 4) =
      writeFifoWindow (m.store (addr + passed.length) [b₀, b₁, b₂, b₃]) addr
        (buffer.filled (passed ++ b₀ :: b₁ :: b₂ :: b₃ :: data)) (passed.length + 4) count := by
  have hload : ∀ (front : List UInt8) (byte : UInt8) (rest : List UInt8), front.length < 4 →
      (buffer.filled (passed ++ (front ++ byte :: rest))).load (passed.length + front.length) =
        some byte := by
    intro front byte rest hfront
    rw [← List.append_assoc]
    exact buffer.load_filled_append List.length_append (by omega) byte rest
  have h₁ := hload [b₀] b₁ (b₂ :: b₃ :: data) (by simp)
  have h₂ := hload [b₀, b₁] b₂ (b₃ :: data) (by simp)
  have h₃ := hload [b₀, b₁, b₂] b₃ data (by simp)
  simp only [List.cons_append, List.nil_append, List.length_cons, List.length_nil] at h₁ h₂ h₃
  rw [writeFifoWindow, buffer.load_filled_append rfl (by omega), ← DeviceMemory.write32_packWord]
  simp only [Option.bind_eq_bind, Option.bind_some, h₁, h₂, h₃]

theorem writeFifoWindow_filled (buffer : CheckedBuffer UInt8 c) (m : DeviceMemory) (addr : Nat)
    (passed data : List UInt8) (hfit : passed.length + data.length ≤ c) :
    writeFifoWindow m addr (buffer.filled (passed ++ data)) passed.length data.length =
      some (m.store (addr + passed.length) data) := by
  induction hn : data.length using Nat.strong_induction_on generalizing m passed data with
  | _ n ih =>
    subst hn
    match data with
    | b₀ :: b₁ :: b₂ :: b₃ :: data =>
      simp only [List.length_cons] at hfit ih
      have hrest := ih data.length (by omega) (m.store (addr + passed.length) [b₀, b₁, b₂, b₃])
        (passed ++ [b₀, b₁, b₂, b₃]) data (by
          rw [List.length_append]
          exact (show passed.length + 4 + data.length ≤ c by omega)) rfl
      rw [List.length_append, List.append_assoc, ← Nat.add_assoc] at hrest
      exact (writeFifoWindow_word buffer m addr passed data b₀ b₁ b₂ b₃ (by omega) _).trans hrest
    | [] | [_] | [_, _] | [_, _, _] => exact writeFifoBytes_filled buffer m addr passed _ hfit

/-! ## Servicing the hardware FIFOs -/

/-- `frameBytes` is the local array, and `rxFifo` the port's ring. -/
def stageRxBytesFromHw (frameBytes : CheckedBuffer UInt8 c) (m : DeviceMemory) (deviceBase : Nat)
    (p : PortIndex) (rxFifo : RingBuffer) : Option (Error × RingBuffer × DeviceMemory) :=
  let (bytesAvailable, m) := readFifoLevel m deviceBase p regRxlvl
  if bytesAvailable = 0 then some (.ok, rxFifo, m)
  else
    let bytesToStage := rxFifo.capacity - rxFifo.size
    let bytesToStage := if bytesAvailable < bytesToStage then bytesAvailable else bytesToStage
    let bytesToStage := if fifoCapacity < bytesToStage then fifoCapacity else bytesToStage
    if bytesToStage = 0 then some (.ok, rxFifo, m)
    else do
      let (error, bytesRead, frameBytes, m) ←
        readRxFifo m (some deviceBase) p frameBytes bytesToStage
      if error ≠ .ok then return (error, rxFifo, m)
      let (written, rxFifo) ← ringWriteBytes rxFifo frameBytes 0 bytesRead
      if written ≠ bytesRead then return (.errorInvalidFrame, rxFifo, m)
      return (.ok, rxFifo, m)

/-- `frameBytes` is the local array, and `txQueue` the port's ring. -/
def flushTxQueueToHw (frameBytes : CheckedBuffer UInt8 c) (m : DeviceMemory) (deviceBase : Nat)
    (p : PortIndex) (txQueue : RingBuffer) : Option (Error × RingBuffer × DeviceMemory) :=
  let (bytesAvailable, m) := readFifoLevel m deviceBase p regTxlvl
  if bytesAvailable = 0 ∨ txQueue.size = 0 then some (.ok, txQueue, m)
  else do
    let bytesToWrite := txQueue.size
    let bytesToWrite := if bytesAvailable < bytesToWrite then bytesAvailable else bytesToWrite
    let bytesToWrite := if fifoCapacity < bytesToWrite then fifoCapacity else bytesToWrite
    let (bytesToWrite, frameBytes, txQueue) ← ringReadBytes txQueue frameBytes 0 bytesToWrite
    if bytesToWrite = 0 then return (.ok, txQueue, m)
    let (error, bytesWritten, m) ← writeTxFifo m (some deviceBase) p frameBytes bytesToWrite
    if error ≠ .ok then return (error, txQueue, m)
    if bytesWritten ≠ bytesToWrite then return (.errorInvalidFrame, txQueue, m)
    return (.ok, txQueue, m)

theorem readRxFifo_checked (buffer : CheckedBuffer UInt8 c) (m : DeviceMemory)
    (deviceBase : Nat) (p : PortIndex) {length : Nat} (hfit : length ≤ c) :
    readRxFifo m (some deviceBase) p buffer length =
      some (.ok, min length (peekLevel m deviceBase p regRxlvl),
        buffer.filled (peekWindow m deviceBase p (min length (peekLevel m deviceBase p regRxlvl))),
        (Xr17v358.readRxFifo m (some deviceBase) p ⟨.valid, length⟩ .valid).2) := by
  have hle : ([] : List UInt8).length + min length (peekLevel m deviceBase p regRxlvl) ≤ c := by
    rw [List.length_nil]
    omega
  have hwindow := readFifoWindow_filled buffer
    (m.read8 (registerAddress deviceBase p regRxlvl)).2 (fifoAddress deviceBase p) [] hle
  have hbytes := @peekWindow_read8 m deviceBase p regRxlvl (by decide)
    (min length (peekLevel m deviceBase p regRxlvl))
  rw [CheckedBuffer.filled_nil, List.length_nil, Nat.add_zero, List.nil_append,
    DeviceMemory.load_fst] at hwindow
  rw [readRxFifo_eq, readRxFifo]
  simp only [p.isLt, dif_pos, readFifoLevel_eq, ← min_def_lt, clamp_level, Option.bind_eq_bind]
  rw [hwindow, ← hbytes]
  rfl

theorem writeTxFifo_checked (buffer : CheckedBuffer UInt8 c) (m : DeviceMemory)
    (deviceBase : Nat) (p : PortIndex) {data : List UInt8} (hfit : data.length ≤ c)
    (hshort : data.length ≤ fifoCapacity) :
    writeTxFifo m (some deviceBase) p (buffer.filled data) data.length =
      some (.ok, data.length, m.store (fifoAddress deviceBase p) data) := by
  have hwindow := writeFifoWindow_filled buffer m (fifoAddress deviceBase p) [] data
    (by rwa [List.length_nil, Nat.zero_add])
  rw [List.nil_append, List.length_nil, Nat.add_zero] at hwindow
  rw [writeTxFifo]
  simp only [p.isLt, dif_pos, if_neg (show ¬ fifoCapacity < data.length by omega),
    Option.bind_eq_bind]
  rw [hwindow]
  rfl

theorem stageRxBytesFromHw_checked (buffer : CheckedBuffer UInt8 c) (hc : fifoCapacity ≤ c)
    (m : DeviceMemory) (deviceBase : Nat) (p : PortIndex) (port : Port) :
    stageRxBytesFromHw buffer m deviceBase p port.rxFifo.1 =
      some ((Xr17v358.stageRxBytesFromHw m deviceBase p port).1,
        (Xr17v358.stageRxBytesFromHw m deviceBase p port).2.1.rxFifo.1,
        (Xr17v358.stageRxBytesFromHw m deviceBase p port).2.2) := by
  have hlt := peekLevel_lt m deviceBase p regRxlvl
  rw [stageRxBytesFromHw_eq]
  unfold stageRxBytesFromHw stageMemory
  simp only [readFifoLevel_eq, Ring.capacity_sub_size, ← min_def_lt, clamp_level]
  by_cases hzero : min port.rxFifo.room (peekLevel m deviceBase p regRxlvl) = 0
  · obtain ⟨hnone, hnothing⟩ := stageCount_eq_zero hzero
    rw [hnone, if_pos hzero, if_pos hzero, hnothing]
    split_ifs <;> rfl
  · have hcount := stageCount_le_room m deviceBase p port
    have hfit : (peekWindow m deviceBase p (stageCount m deviceBase p port)).length ≤ c := by
      rw [length_peekWindow]
      exact (stageCount_le m deviceBase p port).trans hc
    have hread := readRxFifo_checked buffer (m.read8 (registerAddress deviceBase p regRxlvl)).2
      deviceBase p (show min port.rxFifo.room (peekLevel m deviceBase p regRxlvl) ≤ c by omega)
    have hwrite := ringWriteBytes_run buffer port.rxFifo hfit
    rw [length_peekWindow, Ring.writeBytes_fst, length_peekWindow, Nat.min_eq_left hcount]
      at hwrite
    rw [readRxFifo_eq, peekWindow_read8 (by decide)] at hread
    rw [if_neg (by omega), if_neg hzero, if_neg hzero, hread]
    unfold stageCount at hwrite ⊢
    simp only [Option.bind_eq_bind, Option.bind_some, hwrite, ne_eq, not_true_eq_false, if_false,
      Option.pure_def]

theorem flushTxQueueToHw_checked (buffer : CheckedBuffer UInt8 c) (hc : fifoCapacity ≤ c)
    (m : DeviceMemory) (deviceBase : Nat) (p : PortIndex) (port : Port) :
    flushTxQueueToHw buffer m deviceBase p port.txQueue.1 =
      some ((Xr17v358.flushTxQueueToHw m deviceBase p port).1,
        (Xr17v358.flushTxQueueToHw m deviceBase p port).2.1.txQueue.1,
        (Xr17v358.flushTxQueueToHw m deviceBase p port).2.2) := by
  have hsize : port.txQueue.1.size = port.txQueue.contents.length := port.txQueue.size_eq
  have hcount : min port.txQueue.contents.length (peekLevel m deviceBase p regTxlvl) =
      flushCount m deviceBase p port := rfl
  rw [flushTxQueueToHw_eq]
  unfold flushTxQueueToHw
  simp only [readFifoLevel_eq, hsize, ← min_def_lt, clamp_level, hcount]
  by_cases hzero : peekLevel m deviceBase p regTxlvl = 0 ∨ port.txQueue.contents.length = 0
  · rw [if_pos hzero, flushCount_eq_zero_iff.2 hzero, Ring.readBytes_zero]
    rfl
  · have hpos : flushCount m deviceBase p port ≠ 0 := mt flushCount_eq_zero_iff.1 hzero
    have hcap := flushCount_lt m deviceBase p port
    have hlength := length_flushed m deviceBase p port
    have hread := ringReadBytes_run buffer port.txQueue (hcap.le.trans hc)
    have hwrite := writeTxFifo_checked buffer (m.read8 (registerAddress deviceBase p regTxlvl)).2
      deviceBase p (hlength.trans_le (hcap.le.trans hc)) (hlength.trans_le hcap.le)
    rw [Ring.readBytes_fst, hlength] at hread
    rw [hlength] at hwrite
    rw [if_neg hzero, hread]
    simp only [Option.bind_eq_bind, Option.bind_some, if_neg hpos, hwrite, ne_eq,
      not_true_eq_false, if_false, Option.pure_def]

end Xr17v358.Checked
