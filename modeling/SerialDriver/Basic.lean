import Mathlib

/-!
# Constants and argument types

The constants of `ring_buffer.h`, `xr17v358_internal.h` and `xr17v358_register_map.h`, the status
codes, the port configuration, and the shapes pointer arguments take. Sizes are natural numbers:
every `size_t` of the driver stays far below `2 ^ 64`.
-/

namespace Xr17v358

/-! ## Constants -/

/-- `XR17V358_QUEUE_CAPACITY`, the longest payload. -/
def queueCapacity : Nat := 1024

/-- `XR17V358_FIFO_CAPACITY`, the bytes moved in one service step. -/
def fifoCapacity : Nat := 256

/-- `XR17V358_FRAME_DELIMITER`. -/
def frameDelimiter : UInt8 := 0x7E

/-- `XR17V358_MAX_ENCODED_BYTE_COUNT`. -/
def maxEncodedByteCount : Nat := 2 + queueCapacity * 2

/-- `XR17V358_RING_BUFFER_STORAGE_CAPACITY`. -/
def ringBufferStorageCapacity : Nat := fifoCapacity * maxEncodedByteCount

/-- `XR17V358_FRAME_ESCAPE`. -/
def frameEscape : UInt8 := 0x7D

/-- `XR17V358_FRAME_ESCAPE_XOR`. -/
def frameEscapeXor : UInt8 := 0x20

/-- `XR17V358_FIFO_REGISTER_OFFSET`. -/
def fifoRegisterOffset : Nat := 0x0100

/-- `XR17V358_PORT_STRIDE`. -/
def portStride : Nat := 0x0400

/-- `XR17V358_REG_MCR`. -/
def regMcr : Nat := 0x04

/-- `XR17V358_REG_TXLVL`. -/
def regTxlvl : Nat := 0x08

/-- `XR17V358_REG_RXLVL`. -/
def regRxlvl : Nat := 0x09

/-- `XR17V358_MCR_RTS`. -/
def mcrRts : UInt8 := 0x02

/-- `XR17V358_MCR_LOOPBACK`. -/
def mcrLoopback : UInt8 := 0x10

/-- `XR17V358_DEFAULT_BAUD_RATE`. -/
def defaultBaudRate : UInt32 := 115200

/-- `XR17V358_DEVICE_BASE_ADDRESS`. -/
def deviceBaseAddress : Nat := 0x10000000

/-- `k_port_offsets`. -/
def kPortOffsets : List Nat := [0x0000, 0x0400, 0x0800, 0x0C00, 0x1000, 0x1400, 0x1800, 0x1C00]

/-- `xr17v358_get_port_count`. -/
abbrev getPortCount : Nat := kPortOffsets.length

instance : NeZero getPortCount := ⟨by decide⟩

/-- An index that passed `xr17v358_validate_port_index`. -/
abbrev PortIndex := Fin getPortCount

/-- The port's entry of `k_port_offsets`. -/
def PortIndex.offset (i : PortIndex) : Nat := kPortOffsets[i]

/-! ## Status codes -/

/-- `xr17v358_error`. `XR17V358_OK` and `XR17V358_MESSAGE_NOT_READY` are one value. -/
inductive Error
  | ok
  | messageReady
  | errorInvalidArgument
  | errorInvalidPort
  | errorInvalidFrame
  deriving DecidableEq, Repr

abbrev Error.messageNotReady : Error := .ok

/-! ## Port configuration -/

/-- `xr17v358_port_config`. The two enumerations are their integer values, since callers can pass
any. -/
structure PortConfig where
  baudRate : UInt32
  stopBits : Int
  parity : Int
  deriving DecidableEq, Repr

def stopBits1 : Int := 1
def stopBits2 : Int := 2
def parityNone : Int := 0
def parityEven : Int := 1
def parityOdd : Int := 2

/-- `xr17v358_validate_port_config`; `none` is a null pointer. -/
def validatePortConfig : Option PortConfig → Error
  | none => .errorInvalidArgument
  | some config =>
    if config.baudRate = 0 then .errorInvalidArgument
    else if config.stopBits ≠ stopBits1 ∧ config.stopBits ≠ stopBits2 then .errorInvalidArgument
    else if config.parity ≠ parityNone ∧ config.parity ≠ parityEven ∧ config.parity ≠ parityOdd then
      .errorInvalidArgument
    else .ok

/-- `xr17v358_default_port_config`. -/
def defaultPortConfig : PortConfig := ⟨defaultBaudRate, stopBits1, parityNone⟩

theorem validatePortConfig_default : validatePortConfig (some defaultPortConfig) = .ok := by
  decide

theorem validatePortConfig_rejected {config : Option PortConfig}
    (h : validatePortConfig config ≠ .ok) : validatePortConfig config = .errorInvalidArgument := by
  unfold validatePortConfig at h ⊢
  split
  · rfl
  · dsimp only at h ⊢
    split_ifs at h ⊢ <;> first | rfl | exact absurd rfl h

/-! ## Pointer arguments -/

/-- An out-parameter pointer. -/
inductive Ptr
  | null
  | valid
  deriving DecidableEq, Repr

/-- A `(const uint8_t *data, size_t length)` pair: a null pointer passed with a length, or a buffer
of exactly that many bytes. -/
inductive InBuffer
  | null (length : Nat)
  | bytes (data : List UInt8)
  deriving DecidableEq, Repr

def InBuffer.length : InBuffer → Nat
  | null length => length
  | bytes data => data.length

/-- The bytes behind the pointer; nothing is read through a null pointer. -/
def InBuffer.toList : InBuffer → List UInt8
  | null _ => []
  | bytes data => data

/-- `length > 0U && data == NULL`. -/
def InBuffer.missing : InBuffer → Bool
  | null length => 0 < length
  | bytes _ => false

/-- A `(uint8_t *data, size_t length)` pair of an output buffer. -/
structure OutBuffer where
  ptr : Ptr
  length : Nat
  deriving DecidableEq, Repr

/-- `length > 0U && data == NULL`. -/
def OutBuffer.missing (buf : OutBuffer) : Bool := buf.ptr = .null ∧ 0 < buf.length

/-- What a call hands back: its status, the count stored through its out-parameter (`none` when
nothing was stored), the bytes stored at the start of its output buffer, and the configuration
stored through its out-parameter. -/
structure Reply where
  status : Error
  count : Option Nat := none
  data : List UInt8 := []
  config : Option PortConfig := none
  deriving DecidableEq, Repr

namespace Reply

/-- A status alone. -/
def code (status : Error) : Reply := { status := status }

def counted (count : Nat) : Reply := { status := .ok, count := some count }

def returned (data : List UInt8) : Reply :=
  { status := .ok, count := some data.length, data := data }

end Reply

end Xr17v358
