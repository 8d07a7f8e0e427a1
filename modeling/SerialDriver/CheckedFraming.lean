import SerialDriver.RingBufferProof
import SerialDriver.Lib.CheckedBuffer

/-!
# Encoding, decoding and extracting into a buffer

`encodeSerialData`, `decodeSerialData` and `ringReadFrame` once more, now with the array that the
caller passes and the index the C code keeps into it: a store outside the array gives `none`. Each
is the list version with the list stored at the front of the array
(`encodeSerialData_filled`, `decodeSerialData_filled`, `ringReadFrame_filled`), as long as the array
is as long as the function is told, or the longest payload.
-/

namespace Xr17v358.Checked

variable {c : Nat}

/-! ## Encoding -/

/-- The encoding loop, `frameLength` being the index of the next store. -/
def encodeLoop (frame : CheckedBuffer UInt8 c) (frameLength : Nat) :
    List UInt8 → Option (Nat × CheckedBuffer UInt8 c)
  | [] => some (frameLength, frame)
  | value :: data =>
    if requiresEscape value then do
      let frame ← frame.store frameLength frameEscape
      let frame ← frame.store (frameLength + 1) (value ^^^ frameEscapeXor)
      encodeLoop frame (frameLength + 2) data
    else do
      let frame ← frame.store frameLength value
      encodeLoop frame (frameLength + 1) data

/-- The C function's result and the array afterwards. -/
def encodeSerialData (_portIndex : Nat) (data : InBuffer) (ptr : Ptr)
    (frame : CheckedBuffer UInt8 c) (frameCapacity : Nat) :
    Option (Nat × CheckedBuffer UInt8 c) :=
  match ptr, data with
  | .null, _ => some (0, frame)
  | _, .null _ => some (0, frame)
  | .valid, .bytes data =>
    if data.length = 0 ∨ queueCapacity < data.length then some (0, frame)
    else if frameCapacity < encodedLength data then some (0, frame)
    else do
      let frame ← frame.store 0 frameDelimiter
      let (frameLength, frame) ← encodeLoop frame 1 data
      let frame ← frame.store frameLength frameDelimiter
      return (frameLength + 1, frame)

theorem encodeLoop_filled (frame : CheckedBuffer UInt8 c) {stored data : List UInt8}
    (hfit : stored.length + (data.flatMap encodeByte).length ≤ c) :
    encodeLoop (frame.filled stored) stored.length data =
      some ((stored ++ data.flatMap encodeByte).length,
        frame.filled (stored ++ data.flatMap encodeByte)) := by
  induction data generalizing stored with
  | nil => simp [encodeLoop]
  | cons value data ih =>
    rw [List.flatMap_cons] at hfit ⊢
    rw [encodeLoop]
    by_cases hescape : requiresEscape value
    · have hbyte : encodeByte value = [frameEscape, value ^^^ frameEscapeXor] := if_pos hescape
      rw [hbyte, List.length_append] at hfit
      simp only [List.length_cons, List.length_nil] at hfit
      have hfirst := frame.store_filled (show stored.length < c by omega) frameEscape
      have hroom : (stored ++ [frameEscape]).length < c := by
        rw [List.length_append, List.length_singleton]
        omega
      have hsecond := frame.store_filled hroom (value ^^^ frameEscapeXor)
      have hrest := @ih (stored ++ [frameEscape, value ^^^ frameEscapeXor]) (by
        simp only [List.length_append, List.length_cons, List.length_nil]
        omega)
      simp only [List.length_append, List.length_singleton, List.append_assoc,
        List.singleton_append] at hsecond
      rw [if_pos hescape, hfirst, hbyte]
      simp only [Option.bind_eq_bind, Option.bind_some, hsecond]
      simpa using hrest
    · have hbyte : encodeByte value = [value] := if_neg hescape
      rw [hbyte, List.length_append, List.length_singleton] at hfit
      have hstore := frame.store_filled (show stored.length < c by omega) value
      have hrest := @ih (stored ++ [value]) (by
        rw [List.length_append, List.length_singleton]
        omega)
      rw [if_neg hescape, hstore, hbyte]
      simpa using hrest

/-- **The encoder stores its result and nothing else.** -/
theorem encodeSerialData_filled (portIndex : Nat) (data : InBuffer) (ptr : Ptr)
    (frame : CheckedBuffer UInt8 c) {frameCapacity : Nat} (hcapacity : frameCapacity ≤ c) :
    encodeSerialData portIndex data ptr frame frameCapacity =
      some ((Xr17v358.encodeSerialData portIndex data ptr frameCapacity).length,
        frame.filled (Xr17v358.encodeSerialData portIndex data ptr frameCapacity)) := by
  cases ptr with
  | null => simp [encodeSerialData, Xr17v358.encodeSerialData]
  | valid =>
    cases data with
    | null length => simp [encodeSerialData, Xr17v358.encodeSerialData]
    | bytes data =>
      unfold encodeSerialData Xr17v358.encodeSerialData
      dsimp only
      by_cases hlength : data.length = 0 ∨ queueCapacity < data.length
      · simp only [if_pos hlength, List.length_nil, CheckedBuffer.filled_nil]
      by_cases hshort : frameCapacity < encodedLength data
      · simp only [if_neg hlength, if_pos hshort, List.length_nil, CheckedBuffer.filled_nil]
      have hstuffed : (data.flatMap encodeByte).length + 2 ≤ c := by
        have hlen : encodedLength data = (data.flatMap encodeByte).length + 2 := encodedLength_eq data
        omega
      have hopen : frame.store 0 frameDelimiter = some (frame.filled [frameDelimiter]) := by
        have hpos : ([] : List UInt8).length < c := by
          rw [List.length_nil]
          omega
        have hstore := frame.store_filled hpos frameDelimiter
        rwa [CheckedBuffer.filled_nil] at hstore
      have hbody := @encodeLoop_filled c frame [frameDelimiter] data (by
        rw [List.length_singleton]
        omega)
      have hclosed : ([frameDelimiter] ++ data.flatMap encodeByte).length < c := by
        rw [List.length_append, List.length_singleton]
        omega
      have hclose := frame.store_filled hclosed frameDelimiter
      rw [List.length_singleton] at hbody
      simp only [if_neg hlength, if_neg hshort, hopen, hbody, hclose, Option.bind_eq_bind,
        Option.bind_some, Option.pure_def]
      simp

/-! ## Decoding -/

/-- The decoding loop, `decodedLength` being the index of the next store. -/
def decodeLoop (frame : List UInt8) (dataCapacity : Nat) : (n i : Nat) →
    CheckedBuffer UInt8 c → (decodedLength : Nat) → Option (Error × Nat × CheckedBuffer UInt8 c)
  | 0, _, _, _ => none
  | n + 1, i, data, decodedLength =>
    if i + 1 < frame.length then do
      match ← decodeValue frame i with
      | none => return (.errorInvalidFrame, decodedLength, data)
      | some (value, i) =>
        if queueCapacity ≤ decodedLength then
          return (.errorInvalidFrame, decodedLength, data)
        else if dataCapacity ≤ decodedLength then
          return (.errorInvalidArgument, decodedLength, data)
        else do
          let data ← data.store decodedLength value
          decodeLoop frame dataCapacity n (i + 1) data (decodedLength + 1)
    else some (.ok, decodedLength, data)

/-- The status, the value stored through `data_length`, if any, and the array afterwards. -/
def decodeSerialData (_portIndex : Nat) (frame : InBuffer) (ptr : Ptr)
    (data : CheckedBuffer UInt8 c) (dataCapacity : Nat) (dataLength : Ptr) :
    Option (Error × Option Nat × CheckedBuffer UInt8 c) :=
  match frame with
  | .null _ => some (.errorInvalidArgument, none, data)
  | .bytes frame =>
    if ptr = .null ∨ dataLength = .null then some (.errorInvalidArgument, none, data)
    else if frame.length < 3 then some (.errorInvalidFrame, none, data)
    else do
      let first ← frame[0]?
      let last ← frame[frame.length - 1]?
      if first ≠ frameDelimiter ∨ last ≠ frameDelimiter then
        return (.errorInvalidFrame, none, data)
      let (error, decodedLength, data) ← decodeLoop frame dataCapacity frame.length 1 data 0
      if error ≠ .ok then return (error, none, data)
      if decodedLength = 0 then return (.errorInvalidFrame, none, data)
      return (.ok, some decodedLength, data)

theorem decodeLoop_filled {dataCapacity : Nat} (hcapacity : min dataCapacity queueCapacity ≤ c)
    (frame : List UInt8) (buffer : CheckedBuffer UInt8 c) (n i : Nat) (data : List UInt8) :
    decodeLoop frame dataCapacity n i (buffer.filled data) data.length =
      (Xr17v358.decodeLoop frame dataCapacity n i data).map fun out =>
        (out.1, out.2.length, buffer.filled out.2) := by
  induction n generalizing i data with
  | zero => rfl
  | succ n ih =>
    rw [decodeLoop, Xr17v358.decodeLoop]
    by_cases hmore : i + 1 < frame.length
    · rw [if_pos hmore, if_pos hmore]
      rcases decodeValue frame i with _ | _ | ⟨value, j⟩
      · rfl
      · rfl
      · simp only [Option.bind_eq_bind, Option.bind_some, Option.pure_def]
        split_ifs with hqueue hfull
        · rfl
        · rfl
        · rw [buffer.store_filled (by omega), ← ih, List.length_append, List.length_singleton]
          rfl
    · rw [if_neg hmore, if_neg hmore]
      rfl

theorem decodeSerialData_filled (portIndex : Nat) (frame : InBuffer) (ptr dataLength : Ptr)
    {dataCapacity : Nat} (hcapacity : min dataCapacity queueCapacity ≤ c)
    (buffer : CheckedBuffer UInt8 c) :
    decodeSerialData portIndex frame ptr buffer dataCapacity dataLength =
      (Xr17v358.decodeSerialData portIndex frame ⟨ptr, dataCapacity⟩ dataLength).map fun reply =>
        (reply.status, reply.dataLength, buffer.filled reply.data) := by
  cases frame with
  | null length => simp [decodeSerialData, Xr17v358.decodeSerialData]
  | bytes frame =>
    have hloop := decodeLoop_filled hcapacity frame buffer frame.length 1 []
    rw [CheckedBuffer.filled_nil, List.length_nil] at hloop
    unfold decodeSerialData Xr17v358.decodeSerialData
    dsimp only
    split_ifs
    · simp
    · simp
    · rcases frame[0]? with _ | first
      · rfl
      rcases frame[frame.length - 1]? with _ | last
      · rfl
      simp only [Option.bind_eq_bind, Option.bind_some, Option.pure_def, hloop]
      split_ifs
      · simp
      · rcases Xr17v358.decodeLoop frame dataCapacity frame.length 1 [] with _ | ⟨error, data⟩
        · rfl
        · simp only [Option.map_some, Option.bind_some]
          split_ifs <;> rfl

/-- A decoder that reads no index outside its frame is defined. -/
theorem decodeSerialData_defined (portIndex : Nat) (frame : InBuffer) (data : OutBuffer)
    (dataLength : Ptr) :
    ∃ reply, Xr17v358.decodeSerialData portIndex frame data dataLength = some reply := by
  obtain ⟨ptr, dataCapacity⟩ := data
  cases frame with
  | null length => exact ⟨_, rfl⟩
  | bytes frame =>
    by_cases hnull : ptr = .null ∨ dataLength = .null
    · exact ⟨_, if_pos hnull⟩
    · obtain ⟨hptr, hlength⟩ := not_or.1 hnull
      obtain rfl : ptr = .valid := by cases ptr <;> simp_all
      obtain rfl : dataLength = .valid := by cases dataLength <;> simp_all
      obtain ⟨reply, hrun, -⟩ := decodeSerialData_spec portIndex frame dataCapacity
      exact ⟨reply, hrun⟩

/-! ## Extracting -/

/-- The extraction loop, `count` being the index of the next store. -/
def ringReadFrameLoop (frameCapacity : Nat) : Nat → RingBuffer → CheckedBuffer UInt8 c →
    (count : Nat) → Option ((Error × Option Nat × CheckedBuffer UInt8 c) × RingBuffer)
  | 0, rb, frame, _ => some ((.errorInvalidFrame, none, frame), rb)
  | n + 1, rb, frame, count =>
    if 0 < rb.size then do
      let (bytes, rb) ← ringReadBytes rb 1
      let byte := bytes.headD 0
      if count = 0 then
        if byte ≠ frameDelimiter then ringReadFrameLoop frameCapacity n rb frame count
        else do
          let frame ← frame.store count byte
          ringReadFrameLoop frameCapacity n rb frame (count + 1)
      else if frameCapacity ≤ count then return ((.errorInvalidFrame, none, frame), rb)
      else do
        let frame ← frame.store count byte
        if byte = frameDelimiter then return ((.ok, some (count + 1), frame), rb)
        else ringReadFrameLoop frameCapacity n rb frame (count + 1)
    else some ((.errorInvalidFrame, none, frame), rb)

/-- The status, the value stored through `frame_length`, if any, and the array and the ring
afterwards. -/
def ringReadFrame (rb : RingBuffer) (ptr : Ptr) (frame : CheckedBuffer UInt8 c)
    (frameCapacity : Nat) (frameLength : Ptr) :
    Option ((Error × Option Nat × CheckedBuffer UInt8 c) × RingBuffer) :=
  if ptr = .null ∨ frameLength = .null ∨ frameCapacity = 0 then
    some ((.errorInvalidArgument, none, frame), rb)
  else ringReadFrameLoop frameCapacity rb.size rb frame 0

theorem ringReadFrameLoop_filled {frameCapacity : Nat} (hpos : 0 < frameCapacity)
    (hcapacity : frameCapacity ≤ c) (buffer : CheckedBuffer UInt8 c) (n : Nat) (rb : RingBuffer)
    (frame : List UInt8) :
    ringReadFrameLoop frameCapacity n rb (buffer.filled frame) frame.length =
      (Xr17v358.ringReadFrameLoop frameCapacity n rb frame).map fun out =>
        ((out.1.status, out.1.frameLength, buffer.filled out.1.frame), out.2) := by
  induction n generalizing rb frame with
  | zero => rfl
  | succ n ih =>
    rw [ringReadFrameLoop, Xr17v358.ringReadFrameLoop]
    by_cases hsize : 0 < rb.size
    · rw [if_pos hsize, if_pos hsize]
      rcases ringReadBytes rb 1 with _ | ⟨bytes, rb'⟩
      · rfl
      have hnext := ih rb' (frame ++ [bytes.headD 0])
      rw [List.length_append, List.length_singleton] at hnext
      simp only [Option.bind_eq_bind, Option.bind_some, Option.pure_def]
      split_ifs with hopen hnoise hfull hclose
      · exact ih rb' frame
      · rw [buffer.store_filled (by omega), Option.bind_some]
        exact hnext
      · rfl
      · rw [buffer.store_filled (by omega), Option.bind_some]
        simp
      · rw [buffer.store_filled (by omega), Option.bind_some]
        exact hnext
    · rw [if_neg hsize, if_neg hsize]
      rfl

theorem ringReadFrame_filled (rb : RingBuffer) (ptr frameLength : Ptr) {frameCapacity : Nat}
    (hcapacity : frameCapacity ≤ c) (buffer : CheckedBuffer UInt8 c) :
    ringReadFrame rb ptr buffer frameCapacity frameLength =
      (Xr17v358.ringReadFrame rb ptr frameCapacity frameLength).map fun out =>
        ((out.1.status, out.1.frameLength, buffer.filled out.1.frame), out.2) := by
  have hloop := fun hpos : 0 < frameCapacity =>
    ringReadFrameLoop_filled hpos hcapacity buffer rb.size rb []
  rw [CheckedBuffer.filled_nil, List.length_nil] at hloop
  unfold ringReadFrame Xr17v358.ringReadFrame
  split_ifs with hreject
  · simp
  · exact hloop (by omega)

end Xr17v358.Checked
