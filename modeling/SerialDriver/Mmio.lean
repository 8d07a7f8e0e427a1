import SerialDriver.Basic
import SerialDriver.Lib.DeviceMemory

/-!
# The memory-mapped registers and FIFO windows

The functions of `xr17v358.c` that touch nothing but the device. A `device_base` of `none` is a null
pointer. Every register read is volatile: `DeviceMemory.read8` may return a different value each
time.

`writeFifoWindow_eq` and `readFifoWindow_eq` say that the word loop followed by the byte loop moves
the same bytes as a byte loop alone.
-/

namespace Xr17v358

/-- `xr17v358_register_address`. -/
def registerAddress (deviceBase : Nat) (p : PortIndex) (registerOffset : Nat) : Nat :=
  deviceBase + p.offset + registerOffset

/-- `xr17v358_read_fifo_level`. -/
def readFifoLevel (m : DeviceMemory) (deviceBase : Nat) (p : PortIndex) (registerOffset : Nat) :
    Nat × DeviceMemory :=
  let (level, m) := m.read8 (registerAddress deviceBase p registerOffset)
  (if fifoCapacity < level.toNat then fifoCapacity else level.toNat, m)

/-! ## FIFO windows -/

/-- The two write loops: whole words, then the remaining bytes. -/
def writeFifoWindow (m : DeviceMemory) (addr : Nat) : List UInt8 → DeviceMemory
  | b₀ :: b₁ :: b₂ :: b₃ :: data =>
    writeFifoWindow (m.write32 addr (packWord b₀ b₁ b₂ b₃)) (addr + 4) data
  | data => m.store addr data

/-- The two read loops: whole words, then the remaining bytes. -/
def readFifoWindow (m : DeviceMemory) (addr : Nat) : Nat → List UInt8 × DeviceMemory
  | count + 4 =>
    let (word, m) := m.read32 addr
    let (data, m) := readFifoWindow m (addr + 4) count
    (unpackWord word ++ data, m)
  | count => m.load addr count

theorem writeFifoWindow_eq (m : DeviceMemory) (addr : Nat) (data : List UInt8) :
    writeFifoWindow m addr data = m.store addr data := by
  fun_induction writeFifoWindow m addr data with
  | case1 m addr b₀ b₁ b₂ b₃ data ih =>
    rw [ih, DeviceMemory.write32_packWord]
    rfl
  | case2 => rfl

theorem readFifoWindow_eq (m : DeviceMemory) (addr count : Nat) :
    readFifoWindow m addr count = m.load addr count := by
  fun_induction readFifoWindow m addr count with
  | case1 m addr count word m' hread data m'' hrest ih =>
    have hword := DeviceMemory.read32_eq m addr
    rw [hread] at hword
    show _ = m.load addr (count + 4)
    rw [Nat.add_comm count 4, DeviceMemory.load_add, ← hword, ← ih, hrest]
  | case2 => rfl

/-- The address of a port's FIFO window. -/
def fifoAddress (deviceBase : Nat) (p : PortIndex) : Nat :=
  deviceBase + p.offset + fifoRegisterOffset

/-- `xr17v358_write_tx_fifo`. -/
def writeTxFifo (m : DeviceMemory) (deviceBase : Option Nat) (portIndex : Nat) (data : InBuffer)
    (bytesWritten : Ptr) : Reply × DeviceMemory :=
  match deviceBase with
  | none => (.code .errorInvalidArgument, m)
  | some deviceBase =>
    if bytesWritten = .null ∨ data.missing then (.code .errorInvalidArgument, m)
    else if h : portIndex < getPortCount then
      let count := if fifoCapacity < data.length then fifoCapacity else data.length
      (.counted count,
        writeFifoWindow m (fifoAddress deviceBase ⟨portIndex, h⟩) (data.toList.take count))
    else (.code .errorInvalidPort, m)

/-- `xr17v358_read_rx_fifo`. -/
def readRxFifo (m : DeviceMemory) (deviceBase : Option Nat) (portIndex : Nat) (data : OutBuffer)
    (bytesRead : Ptr) : Reply × DeviceMemory :=
  match deviceBase with
  | none => (.code .errorInvalidArgument, m)
  | some deviceBase =>
    if bytesRead = .null ∨ data.missing then (.code .errorInvalidArgument, m)
    else if h : portIndex < getPortCount then
      let (available, m) := readFifoLevel m deviceBase ⟨portIndex, h⟩ regRxlvl
      let count := if available < data.length then available else data.length
      let count := if fifoCapacity < count then fifoCapacity else count
      let (bytes, m) := readFifoWindow m (fifoAddress deviceBase ⟨portIndex, h⟩) count
      (.returned bytes, m)
    else (.code .errorInvalidPort, m)

/-! ## The modem control register -/

/-- `xr17v358_set_discrete`. -/
def setDiscrete (m : DeviceMemory) (deviceBase : Option Nat) (portIndex : Nat) (asserted : Int) :
    Reply × DeviceMemory :=
  match deviceBase with
  | none => (.code .errorInvalidArgument, m)
  | some deviceBase =>
    if h : portIndex < getPortCount then
      let mcr := registerAddress deviceBase ⟨portIndex, h⟩ regMcr
      let (value, m) := m.read8 mcr
      let value := if asserted ≠ 0 then value &&& ~~~mcrRts else value ||| mcrRts
      (.code .ok, m.write8 mcr value)
    else (.code .errorInvalidPort, m)

/-- `xr17v358_set_loopback`. -/
def setLoopback (m : DeviceMemory) (deviceBase : Option Nat) (portIndex : Nat) (enabled : Int) :
    Reply × DeviceMemory :=
  match deviceBase with
  | none => (.code .errorInvalidArgument, m)
  | some deviceBase =>
    if h : portIndex < getPortCount then
      let mcr := registerAddress deviceBase ⟨portIndex, h⟩ regMcr
      let (value, m) := m.read8 mcr
      let value := if enabled ≠ 0 then value ||| mcrLoopback else value &&& ~~~mcrLoopback
      (.code .ok, m.write8 mcr value)
    else (.code .errorInvalidPort, m)

/-! ## Base addresses -/

/-- `xr17v358_get_uart_base`: the address stored through `uart_base`, as the reply's count. -/
def getUartBase (portIndex : Nat) (uartBase : Ptr) : Reply :=
  if uartBase = .null then .code .errorInvalidArgument
  else if h : portIndex < getPortCount then
    .counted (deviceBaseAddress + PortIndex.offset ⟨portIndex, h⟩)
  else .code .errorInvalidPort

/-- `xr17v358_get_tx_fifo_base`. -/
def getTxFifoBase (portIndex : Nat) (fifoBase : Ptr) : Reply :=
  if fifoBase = .null then .code .errorInvalidArgument
  else if h : portIndex < getPortCount then
    .counted (fifoAddress deviceBaseAddress ⟨portIndex, h⟩)
  else .code .errorInvalidPort

end Xr17v358
