import SerialDriver.RingBufferProof

/-!
# Well-formed rings

`Ring` carries the representation invariant, so on it the operations of `ring_buffer.c` are total.
Each is the C operation, taken out of its `Option`, with lemmas that give its output, the new
contents and the capacity.
-/

namespace Xr17v358

/-- A ring buffer that satisfies its invariant. -/
abbrev Ring := { rb : RingBuffer // rb.WF }

namespace Ring

def contents (r : Ring) : List UInt8 := r.1.contents

/-- `rb->size`. -/
def size (r : Ring) : Nat := r.1.size

/-- `rb->capacity`. -/
def capacity (r : Ring) : Nat := r.1.capacity

@[simp] theorem size_eq (r : Ring) : r.size = r.contents.length := (length_contents r.1).symm

theorem length_le (r : Ring) : r.contents.length ≤ r.capacity := by
  rw [← size_eq]
  exact r.2.size_le

/-- The bytes the ring still has room for. -/
def room (r : Ring) : Nat := r.capacity - r.contents.length

theorem capacity_sub_length (r : Ring) : r.capacity - r.contents.length = r.room := rfl

/-- The source computes the room from the size. -/
theorem capacity_sub_size (r : Ring) : r.1.capacity - r.1.size = r.room :=
  congrArg (r.1.capacity - ·) r.size_eq

/-- A ring in zero-initialised static memory. -/
def zero : Ring := ⟨zeroRingBuffer, wf_zeroRingBuffer⟩

@[simp] theorem contents_zero : zero.contents = [] := rfl

@[simp] theorem capacity_zero : zero.capacity = 0 := rfl

/-! ## Total operations -/

/-- An operation that is defined on well-formed rings and keeps them well formed. -/
def total {α : Type} (op : RingBuffer → Option (α × RingBuffer))
    (h : ∀ rb, rb.WF → ∃ out, op rb = some out ∧ out.2.WF) (r : Ring) : α × Ring :=
  let out := (op r.1).get (by obtain ⟨_, hrun, -⟩ := h r.1 r.2; rw [hrun]; rfl)
  have hwf : out.2.WF := by
    obtain ⟨_, hrun, hwf⟩ := h r.1 r.2
    rw [show out = _ from Option.get_of_eq_some _ hrun]
    exact hwf
  (out.1, ⟨out.2, hwf⟩)

theorem total_eq {α : Type} {op : RingBuffer → Option (α × RingBuffer)}
    {h : ∀ rb, rb.WF → ∃ out, op rb = some out ∧ out.2.WF} {r : Ring} {out : α × RingBuffer}
    (hrun : op r.1 = some out) : (total op h r).1 = out.1 ∧ (total op h r).2.1 = out.2 :=
  have hget : (op r.1).get (by rw [hrun]; rfl) = out := Option.get_of_eq_some _ hrun
  ⟨congrArg Prod.fst hget, congrArg Prod.snd hget⟩

theorem total_run {α : Type} (op : RingBuffer → Option (α × RingBuffer))
    (h : ∀ rb, rb.WF → ∃ out, op rb = some out ∧ out.2.WF) (r : Ring) :
    op r.1 = some ((total op h r).1, (total op h r).2.1) :=
  (Option.some_get _).symm

/-- `xr17v358_ring_reset`. -/
def reset (r : Ring) (capacity : Nat) (h : capacity ≤ ringBufferStorageCapacity) : Ring :=
  ⟨ringReset r.1 capacity, wf_ringReset r.1 h⟩

@[simp] theorem contents_reset (r : Ring) {capacity : Nat}
    (h : capacity ≤ ringBufferStorageCapacity) : (r.reset capacity h).contents = [] := rfl

@[simp] theorem capacity_reset (r : Ring) {capacity : Nat}
    (h : capacity ≤ ringBufferStorageCapacity) : (r.reset capacity h).capacity = capacity := rfl

@[simp] theorem room_reset (r : Ring) {capacity : Nat}
    (h : capacity ≤ ringBufferStorageCapacity) : (r.reset capacity h).room = capacity :=
  Nat.sub_zero capacity

/-- `xr17v358_ring_write_bytes`. -/
def writeBytes (r : Ring) (data : List UInt8) : Nat × Ring :=
  total (fun rb => ringWriteBytes rb data) (fun _ h =>
    have ⟨_, hrun, hwf, _⟩ := ringWriteBytes_spec h data
    ⟨_, hrun, hwf⟩) r

theorem writeBytes_spec (r : Ring) (data : List UInt8) :
    (r.writeBytes data).1 = min data.length r.room ∧
      (r.writeBytes data).2.capacity = r.capacity ∧
      (r.writeBytes data).2.contents = r.contents ++ data.take r.room := by
  obtain ⟨rb, hrun, -, hcap, hcontents⟩ := ringWriteBytes_spec r.2 data
  obtain ⟨hout, hring⟩ := @total_eq _ (fun rb => ringWriteBytes rb data) _ r _ hrun
  rw [capacity_sub_size] at hout hcontents
  exact ⟨hout, (congrArg RingBuffer.capacity hring).trans hcap,
    (congrArg RingBuffer.contents hring).trans hcontents⟩

theorem writeBytes_run (r : Ring) (data : List UInt8) :
    ringWriteBytes r.1 data = some ((r.writeBytes data).1, (r.writeBytes data).2.1) :=
  total_run (fun rb => ringWriteBytes rb data) _ r

@[simp] theorem writeBytes_fst (r : Ring) (data : List UInt8) :
    (r.writeBytes data).1 = min data.length r.room := (writeBytes_spec r data).1

@[simp] theorem capacity_writeBytes (r : Ring) (data : List UInt8) :
    (r.writeBytes data).2.capacity = r.capacity := (writeBytes_spec r data).2.1

@[simp] theorem contents_writeBytes (r : Ring) (data : List UInt8) :
    (r.writeBytes data).2.contents = r.contents ++ data.take r.room := (writeBytes_spec r data).2.2

theorem writeBytes_nil (r : Ring) : r.writeBytes [] = (0, r) := by
  obtain ⟨hout, hring⟩ := @total_eq _ (fun rb => ringWriteBytes rb []) _ r (0, r.1) rfl
  exact Prod.ext hout (Subtype.ext hring)

theorem room_writeBytes (r : Ring) (data : List UInt8) :
    (r.writeBytes data).2.room = r.room - data.length := by
  have := r.length_le
  simp only [room, capacity_writeBytes, contents_writeBytes, List.length_append, List.length_take]
  omega

/-- `xr17v358_ring_read_bytes`. -/
def readBytes (r : Ring) (length : Nat) : List UInt8 × Ring :=
  total (fun rb => ringReadBytes rb length) (fun _ h =>
    have ⟨_, hrun, hwf, _⟩ := ringReadBytes_spec h length
    ⟨_, hrun, hwf⟩) r

theorem readBytes_spec (r : Ring) (length : Nat) :
    (r.readBytes length).1 = r.contents.take length ∧
      (r.readBytes length).2.capacity = r.capacity ∧
      (r.readBytes length).2.contents = r.contents.drop length := by
  obtain ⟨rb, hrun, -, hcap, hcontents⟩ := ringReadBytes_spec r.2 length
  obtain ⟨hout, hring⟩ := @total_eq _ (fun rb => ringReadBytes rb length) _ r _ hrun
  exact ⟨hout, (congrArg RingBuffer.capacity hring).trans hcap,
    (congrArg RingBuffer.contents hring).trans hcontents⟩

theorem readBytes_run (r : Ring) (length : Nat) :
    ringReadBytes r.1 length = some ((r.readBytes length).1, (r.readBytes length).2.1) :=
  total_run (fun rb => ringReadBytes rb length) _ r

@[simp] theorem readBytes_fst (r : Ring) (length : Nat) :
    (r.readBytes length).1 = r.contents.take length := (readBytes_spec r length).1

@[simp] theorem capacity_readBytes (r : Ring) (length : Nat) :
    (r.readBytes length).2.capacity = r.capacity := (readBytes_spec r length).2.1

@[simp] theorem contents_readBytes (r : Ring) (length : Nat) :
    (r.readBytes length).2.contents = r.contents.drop length := (readBytes_spec r length).2.2

theorem readBytes_zero (r : Ring) : r.readBytes 0 = ([], r) := by
  obtain ⟨hout, hring⟩ := @total_eq _ (fun rb => ringReadBytes rb 0) _ r ([], r.1) rfl
  exact Prod.ext hout (Subtype.ext hring)

/-- `xr17v358_ring_read_frame` into a buffer of `XR17V358_MAX_ENCODED_BYTE_COUNT` bytes. -/
def readFrame (r : Ring) : FrameReply × Ring :=
  total (fun rb => ringReadFrame rb .valid maxEncodedByteCount .valid) (fun _ h =>
    have ⟨_, hrun, hwf, _⟩ := ringReadFrame_spec h (by decide)
    ⟨_, hrun, hwf⟩) r

theorem readFrame_spec (r : Ring) :
    r.readFrame.1 = (Xr17v358.readFrame maxEncodedByteCount r.contents).1 ∧
      r.readFrame.2.capacity = r.capacity ∧
      r.readFrame.2.contents = (Xr17v358.readFrame maxEncodedByteCount r.contents).2 := by
  obtain ⟨rb, hrun, -, hcap, hcontents⟩ := ringReadFrame_spec r.2
    (show 0 < maxEncodedByteCount by decide)
  obtain ⟨hout, hring⟩ := @total_eq _
    (fun rb => ringReadFrame rb .valid maxEncodedByteCount .valid) _ r _ hrun
  exact ⟨hout, (congrArg RingBuffer.capacity hring).trans hcap,
    (congrArg RingBuffer.contents hring).trans hcontents⟩

@[simp] theorem readFrame_fst (r : Ring) :
    r.readFrame.1 = (Xr17v358.readFrame maxEncodedByteCount r.contents).1 := (readFrame_spec r).1

@[simp] theorem capacity_readFrame (r : Ring) : r.readFrame.2.capacity = r.capacity :=
  (readFrame_spec r).2.1

@[simp] theorem contents_readFrame (r : Ring) :
    r.readFrame.2.contents = (Xr17v358.readFrame maxEncodedByteCount r.contents).2 :=
  (readFrame_spec r).2.2

/-! ## Total scans -/

/-- `xr17v358_ring_frame_count`. -/
def frameCount (r : Ring) : Nat :=
  (ringFrameCount r.1).get (by rw [ringFrameCount_spec r.2]; rfl)

@[simp] theorem frameCount_eq (r : Ring) : r.frameCount = Xr17v358.frameCount r.contents :=
  Option.get_of_eq_some _ (ringFrameCount_spec r.2)

/-- `xr17v358_ring_has_complete_frame`. -/
def hasCompleteFrame (r : Ring) : Bool :=
  (ringHasCompleteFrame r.1).get (by rw [ringHasCompleteFrame_spec r.2]; rfl)

@[simp] theorem hasCompleteFrame_eq (r : Ring) :
    r.hasCompleteFrame = decide (2 ≤ r.contents.count frameDelimiter) :=
  Option.get_of_eq_some _ (ringHasCompleteFrame_spec r.2)

/-- `xr17v358_ring_can_accept_frame`. -/
def canAcceptFrame (r : Ring) (maxFrameCount : Nat) : Bool :=
  (ringCanAcceptFrame r.1 maxFrameCount).get (by rw [ringCanAcceptFrame_spec r.2]; rfl)

@[simp] theorem canAcceptFrame_eq (r : Ring) (maxFrameCount : Nat) :
    r.canAcceptFrame maxFrameCount =
      decide (Xr17v358.frameCount r.contents < maxFrameCount ∧
        r.contents.length + maxEncodedByteCount ≤ r.capacity) := by
  rw [← size_eq]
  exact Option.get_of_eq_some _ (ringCanAcceptFrame_spec r.2 maxFrameCount)

/-- Extracting a frame and decoding it is one step of `receiver`. -/
theorem readFrame_step (r : Ring) (portIndex : Nat)
    (hcount : 2 ≤ r.contents.count frameDelimiter) :
    (receiver.step r.contents = some (none, r.readFrame.2.contents) ∧
        (r.readFrame.1.status = .errorInvalidFrame ∨ r.readFrame.1.status = .ok ∧
          (decode portIndex r.readFrame.1.frame).status = .errorInvalidFrame)) ∨
      ∃ d, receiver.step r.contents = some (some d, r.readFrame.2.contents) ∧
        r.readFrame.1.status = .ok ∧
        decode portIndex r.readFrame.1.frame = ⟨.ok, d, some d.length⟩ := by
  obtain ⟨noise, b, rest, hs, hn, hb⟩ := Delimited.exists_frame hcount
  obtain ⟨hread, -, hrest⟩ := r.readFrame_spec
  by_cases hfit : b.length + 2 ≤ maxEncodedByteCount
  · rw [hs, readFrame_fits hn hb hfit] at hread hrest
    have hstep : receiver.step r.contents = some (payloadOf b, r.readFrame.2.contents) := by
      rw [hs, hrest]
      exact extract_fits hn hb hfit rest
    rw [hstep, hread]
    cases hpayload : payloadOf b with
    | none => exact .inl ⟨rfl, .inr ⟨rfl, decode_of_malformed hpayload portIndex⟩⟩
    | some d => exact .inr ⟨d, rfl, rfl, decode_of_payload hpayload portIndex⟩
  · rw [hs, readFrame_overflow hn hb (by decide) (by omega)] at hread hrest
    refine .inl ⟨?_, .inl (by rw [hread])⟩
    rw [hs, hrest]
    exact extract_overflow hn hb (by omega) rest

/-! ## Moving a frame between rings -/

/-- `xr17v358_ring_transfer_frame`: the status, the source and the destination. -/
def transferFrame (source destination : Ring) : Error × Ring × Ring :=
  let out := (ringTransferFrame source.1 destination.1).get (by
    obtain ⟨_, hrun, -⟩ := ringTransferFrame_spec source.2 destination.2
    rw [hrun]; rfl)
  have hwf : out.2.1.WF ∧ out.2.2.WF := by
    obtain ⟨_, hrun, hs, hd, -⟩ := ringTransferFrame_spec source.2 destination.2
    rw [show out = _ from Option.get_of_eq_some _ hrun]
    exact ⟨hs, hd⟩
  (out.1, ⟨out.2.1, hwf.1⟩, ⟨out.2.2, hwf.2⟩)

theorem transferFrame_spec (source destination : Ring) :
    (transferFrame source destination).2.1.capacity = source.capacity ∧
      (transferFrame source destination).2.2.capacity = destination.capacity ∧
      (transferFrame source destination).2.1.contents =
        (Xr17v358.readFrame maxEncodedByteCount source.contents).2 ∧
      ((transferFrame source destination).1, (transferFrame source destination).2.2.contents) =
        transferOutcome (Xr17v358.readFrame maxEncodedByteCount source.contents).1
          destination.room destination.contents := by
  obtain ⟨out, hrun, -, -, hscap, hdcap, hscontents, hout⟩ :=
    ringTransferFrame_spec source.2 destination.2
  have hget : (ringTransferFrame source.1 destination.1).get (by rw [hrun]; rfl) = out :=
    Option.get_of_eq_some _ hrun
  rw [capacity_sub_size] at hout
  refine ⟨?_, ?_, ?_, ?_⟩
  · exact (congrArg (fun o => o.2.1.capacity) hget).trans hscap
  · exact (congrArg (fun o => o.2.2.capacity) hget).trans hdcap
  · exact (congrArg (fun o => o.2.1.contents) hget).trans hscontents
  · exact (congrArg (fun o => (o.1, o.2.2.contents)) hget).trans hout

end Ring

end Xr17v358
