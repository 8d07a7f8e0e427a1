import SerialDriver.Basic

/-!
# `ring_buffer.c`

The ring buffer as the C code manipulates it, on any state of the structure. An operation returns
`none` where the C program would divide by zero or leave the storage array. Loops over a byte
count recurse on that count; `ringReadFrame`'s loop runs while bytes are buffered, and each turn
removes one, so the buffered size bounds its turns.
-/

namespace Xr17v358

/-- `xr17v358_ring_buffer`. -/
structure RingBuffer where
  storage : Fin ringBufferStorageCapacity → UInt8
  head : Nat
  tail : Nat
  size : Nat
  capacity : Nat

namespace RingBuffer

/-- `rb->storage[i]`. -/
def load (rb : RingBuffer) (i : Nat) : Option UInt8 :=
  if h : i < ringBufferStorageCapacity then some (rb.storage ⟨i, h⟩) else none

/-- `rb->storage[i] = value`. -/
def store (rb : RingBuffer) (i : Nat) (value : UInt8) : Option RingBuffer :=
  if h : i < ringBufferStorageCapacity then
    some { rb with storage := Function.update rb.storage ⟨i, h⟩ value }
  else none

/-- `i % rb->capacity`. -/
def wrap (rb : RingBuffer) (i : Nat) : Option Nat :=
  if rb.capacity = 0 then none else some (i % rb.capacity)

end RingBuffer

/-- A ring buffer in zero-initialised static memory. -/
def zeroRingBuffer : RingBuffer := ⟨fun _ => 0, 0, 0, 0, 0⟩

/-! ## Bytes -/

def ringReset (rb : RingBuffer) (capacity : Nat) : RingBuffer :=
  { rb with head := 0, tail := 0, size := 0, capacity := capacity }

/-- The number of bytes accepted, and the buffer afterwards. -/
def ringWriteBytes (rb : RingBuffer) : List UInt8 → Option (Nat × RingBuffer)
  | [] => some (0, rb)
  | byte :: data =>
    if rb.size < rb.capacity then do
      let rb ← rb.store rb.tail byte
      let tail ← rb.wrap (rb.tail + 1)
      let (i, rb) ← ringWriteBytes { rb with tail := tail, size := rb.size + 1 } data
      return (i + 1, rb)
    else some (0, rb)

/-- The bytes removed, whose number is the C function's result, and the buffer afterwards. -/
def ringReadBytes (rb : RingBuffer) : Nat → Option (List UInt8 × RingBuffer)
  | 0 => some ([], rb)
  | length + 1 =>
    if 0 < rb.size then do
      let byte ← rb.load rb.head
      let head ← rb.wrap (rb.head + 1)
      let (data, rb) ← ringReadBytes { rb with head := head, size := rb.size - 1 } length
      return (byte :: data, rb)
    else some ([], rb)

/-! ## Scanning for frames -/

/-- `rb->storage[(rb->head + i) % rb->capacity]`. -/
def RingBuffer.peek (rb : RingBuffer) (i : Nat) : Option UInt8 := do
  let index ← rb.wrap (rb.head + i)
  rb.load index

/-- The scan of `ringFrameCount` over `n` more bytes, the next at offset `i`. -/
def ringFrameCountLoop (rb : RingBuffer) : (n i frames payloadBytes : Nat) → (inFrame : Bool) →
    Option Nat
  | 0, _, frames, _, _ => some frames
  | n + 1, i, frames, payloadBytes, inFrame => do
    let value ← rb.peek i
    if value = frameDelimiter then
      ringFrameCountLoop rb n (i + 1)
        (if inFrame ∧ 0 < payloadBytes then frames + 1 else frames) 0 true
    else
      ringFrameCountLoop rb n (i + 1) frames (if inFrame then payloadBytes + 1 else payloadBytes)
        inFrame

def ringFrameCount (rb : RingBuffer) : Option Nat := ringFrameCountLoop rb rb.size 0 0 0 false

/-- The scan of `ringHasCompleteFrame` over `n` more bytes, the next at offset `i`. -/
def ringHasCompleteFrameLoop (rb : RingBuffer) : (n i : Nat) → (sawStart : Bool) → Option Bool
  | 0, _, _ => some false
  | n + 1, i, sawStart => do
    let value ← rb.peek i
    if value = frameDelimiter then
      if sawStart then return true else ringHasCompleteFrameLoop rb n (i + 1) true
    else ringHasCompleteFrameLoop rb n (i + 1) sawStart

def ringHasCompleteFrame (rb : RingBuffer) : Option Bool :=
  ringHasCompleteFrameLoop rb rb.size 0 false

/-! ## Moving frames -/

/-- What `ringReadFrame` hands back: the bytes stored in `frame`, and the value stored through
`frame_length`, if any. -/
structure FrameReply where
  status : Error
  frame : List UInt8 := []
  frameLength : Option Nat := none
  deriving DecidableEq, Repr

/-- The extraction loop of `ringReadFrame`, `frame` being the bytes stored so far. -/
def ringReadFrameLoop (frameCapacity : Nat) : Nat → RingBuffer → List UInt8 →
    Option (FrameReply × RingBuffer)
  | 0, rb, frame => some (⟨.errorInvalidFrame, frame, none⟩, rb)
  | n + 1, rb, frame =>
    if 0 < rb.size then do
      let (bytes, rb) ← ringReadBytes rb 1
      let byte := bytes.headD 0
      if frame.length = 0 then
        if byte ≠ frameDelimiter then ringReadFrameLoop frameCapacity n rb frame
        else ringReadFrameLoop frameCapacity n rb (frame ++ [byte])
      else if frameCapacity ≤ frame.length then
        return (⟨.errorInvalidFrame, frame, none⟩, rb)
      else if byte = frameDelimiter then
        return (⟨.ok, frame ++ [byte], some (frame ++ [byte]).length⟩, rb)
      else ringReadFrameLoop frameCapacity n rb (frame ++ [byte])
    else some (⟨.errorInvalidFrame, frame, none⟩, rb)

def ringReadFrame (rb : RingBuffer) (frame : Ptr) (frameCapacity : Nat) (frameLength : Ptr) :
    Option (FrameReply × RingBuffer) :=
  if frame = .null ∨ frameLength = .null ∨ frameCapacity = 0 then
    some (⟨.errorInvalidArgument, [], none⟩, rb)
  else ringReadFrameLoop frameCapacity rb.size rb []

/-- The status, the source and the destination afterwards. -/
def ringTransferFrame (source destination : RingBuffer) :
    Option (Error × RingBuffer × RingBuffer) := do
  let (reply, source) ← ringReadFrame source .valid maxEncodedByteCount .valid
  if reply.status ≠ .ok then return (reply.status, source, destination)
  let (written, destination) ← ringWriteBytes destination reply.frame
  if written ≠ reply.frame.length then return (.errorInvalidFrame, source, destination)
  return (.ok, source, destination)

def ringCanAcceptFrame (rb : RingBuffer) (maxFrameCount : Nat) : Option Bool := do
  let frames ← ringFrameCount rb
  return decide (frames < maxFrameCount ∧ rb.size + maxEncodedByteCount ≤ rb.capacity)

/-- The loop of `ringTransferFrames`. A turn that continues has removed at least one byte from the
source, so the source's size bounds the turns; running out of them is `none`. -/
def ringTransferFramesLoop (destinationFrameCapacity : Nat) : Nat → RingBuffer → RingBuffer →
    Nat → Option (Error × Nat × RingBuffer × RingBuffer)
  | 0, _, _, _ => none
  | n + 1, source, destination, transferred => do
    let frames ← ringFrameCount source
    let accepts ← ringCanAcceptFrame destination destinationFrameCapacity
    if 0 < frames ∧ accepts then
      let (error, source, destination) ← ringTransferFrame source destination
      if error ≠ .ok then return (error, transferred, source, destination)
      ringTransferFramesLoop destinationFrameCapacity n source destination (transferred + 1)
    else return (.ok, transferred, source, destination)

/-- The status, the value stored through `transferred_count`, and the two buffers. -/
def ringTransferFrames (source destination : RingBuffer) (destinationFrameCapacity : Nat)
    (transferredCount : Ptr) : Option (Error × Option Nat × RingBuffer × RingBuffer) := do
  if transferredCount = .null then
    return (.errorInvalidArgument, none, source, destination)
  let (error, transferred, source, destination) ←
    ringTransferFramesLoop destinationFrameCapacity (source.size + 1) source destination 0
  return (error, if error = .ok then some transferred else none, source, destination)

end Xr17v358
