import SerialDriver.Basic

/-!
# The serial codec of `xr17v358.c`

`encodeSerialData` and `decodeSerialData`. The decoder reads its frame by index: a read outside
the frame gives `none`, as does a loop that outlives `frame.length` turns. Output buffers are
written from index 0 upwards, so they are lists.
-/

namespace Xr17v358

/-- `xr17v358_requires_escape`. -/
def requiresEscape (value : UInt8) : Bool := value = frameDelimiter || value = frameEscape

/-! ## Encoding -/

/-- The pre-scan of `encodeSerialData`: the length of the frame for `data`. -/
def encodedLength (data : List UInt8) : Nat :=
  data.foldl (fun frameLength value => frameLength + if requiresEscape value then 2 else 1) 0 + 2

/-- The bytes written for one payload byte. -/
def encodeByte (value : UInt8) : List UInt8 :=
  if requiresEscape value then [frameEscape, value ^^^ frameEscapeXor] else [value]

/-- The bytes written to `frame`; their number is the C function's result. -/
def encodeSerialData (_portIndex : Nat) (data : InBuffer) (frame : Ptr) (frameCapacity : Nat) :
    List UInt8 :=
  match frame, data with
  | .null, _ => []
  | _, .null _ => []
  | .valid, .bytes data =>
    if data.length = 0 ∨ queueCapacity < data.length then []
    else if frameCapacity < encodedLength data then []
    else frameDelimiter :: (data.flatMap encodeByte ++ [frameDelimiter])

/-! ## Decoding -/

/-- The part of the decoding loop that reads one payload byte at index `i`: the byte and the index
of the last frame byte it took, or an inner `none` for an invalid frame. -/
def decodeValue (frame : List UInt8) (i : Nat) : Option (Option (UInt8 × Nat)) := do
  let value ← frame[i]?
  if value = frameDelimiter then return none
  else if value = frameEscape then
    if frame.length ≤ i + 2 then return none
    else
      let next ← frame[i + 1]?
      let value := next ^^^ frameEscapeXor
      if requiresEscape value then return some (value, i + 1) else return none
  else return some (value, i)

/-- The decoding loop at index `i`, `data` being the bytes decoded so far. -/
def decodeLoop (frame : List UInt8) (dataCapacity : Nat) : (n i : Nat) → (data : List UInt8) →
    Option (Error × List UInt8)
  | 0, _, _ => none
  | n + 1, i, data =>
    if i + 1 < frame.length then do
      match ← decodeValue frame i with
      | none => return (.errorInvalidFrame, data)
      | some (value, i) =>
        if queueCapacity ≤ data.length then return (.errorInvalidFrame, data)
        else if dataCapacity ≤ data.length then return (.errorInvalidArgument, data)
        else decodeLoop frame dataCapacity n (i + 1) (data ++ [value])
    else some (.ok, data)

/-- What the decoder hands back: the bytes stored in `data`, and the value stored through
`data_length`, if any. -/
structure DecodeReply where
  status : Error
  data : List UInt8 := []
  dataLength : Option Nat := none
  deriving DecidableEq, Repr

def decodeSerialData (_portIndex : Nat) (frame : InBuffer) (data : OutBuffer) (dataLength : Ptr) :
    Option DecodeReply :=
  match frame with
  | .null _ => some ⟨.errorInvalidArgument, [], none⟩
  | .bytes frame =>
    if data.ptr = .null ∨ dataLength = .null then some ⟨.errorInvalidArgument, [], none⟩
    else if frame.length < 3 then some ⟨.errorInvalidFrame, [], none⟩
    else do
      let first ← frame[0]?
      let last ← frame[frame.length - 1]?
      if first ≠ frameDelimiter ∨ last ≠ frameDelimiter then
        return ⟨.errorInvalidFrame, [], none⟩
      let (error, decoded) ← decodeLoop frame data.length frame.length 1 []
      if error ≠ .ok then return ⟨error, decoded, none⟩
      if decoded.length = 0 then return ⟨.errorInvalidFrame, decoded, none⟩
      return ⟨.ok, decoded, some decoded.length⟩

end Xr17v358
