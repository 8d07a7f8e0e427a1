import SerialDriver.Framing
import SerialDriver.Lib.Circular

/-!
# The ring buffer is a bounded list

`RingBuffer.WF` is the representation invariant and `RingBuffer.contents` the bytes buffered, oldest
first. On a well-formed ring no operation of `ring_buffer.c` is undefined, each keeps the invariant
and the capacity, and its outputs and the new contents are functions of the old contents and the
capacity:

* `ringWriteBytes_spec` — appends what fits;
* `ringReadBytes_spec` — removes from the front;
* `ringFrameCount_spec`, `ringHasCompleteFrame_spec` — scans of the contents;
* `ringReadFrame_spec`, `ringTransferFrame_spec` — the extraction loop, on the contents.
-/

namespace Xr17v358

open Circular

/-! ## The representation -/

/-- The storage array as a function on all indices. -/
def RingBuffer.cell (rb : RingBuffer) (i : Nat) : UInt8 :=
  if h : i < ringBufferStorageCapacity then rb.storage ⟨i, h⟩ else 0

/-- The bytes buffered, oldest first. -/
def RingBuffer.contents (rb : RingBuffer) : List UInt8 :=
  window rb.cell rb.capacity rb.head rb.size

/-- The representation invariant. -/
structure RingBuffer.WF (rb : RingBuffer) : Prop where
  capacity_le : rb.capacity ≤ ringBufferStorageCapacity
  size_le : rb.size ≤ rb.capacity
  head_lt : 0 < rb.capacity → rb.head < rb.capacity
  head_zero : rb.capacity = 0 → rb.head = 0
  tail_eq : rb.tail = (rb.head + rb.size) % rb.capacity

@[simp] theorem length_contents (rb : RingBuffer) : rb.contents.length = rb.size :=
  length_window ..

theorem RingBuffer.WF.tail_lt {rb : RingBuffer} (h : rb.WF) (hcap : 0 < rb.capacity) :
    rb.tail < rb.capacity := by
  rw [h.tail_eq]
  exact Nat.mod_lt _ hcap

theorem wf_ringReset (rb : RingBuffer) {capacity : Nat} (h : capacity ≤ ringBufferStorageCapacity) :
    (ringReset rb capacity).WF where
  capacity_le := h
  size_le := Nat.zero_le _
  head_lt := id
  head_zero := fun _ => rfl
  tail_eq := (Nat.zero_mod capacity).symm

@[simp] theorem contents_ringReset (rb : RingBuffer) (capacity : Nat) :
    (ringReset rb capacity).contents = [] := rfl

theorem wf_zeroRingBuffer : zeroRingBuffer.WF :=
  wf_ringReset zeroRingBuffer (Nat.zero_le _)

@[simp] theorem contents_zeroRingBuffer : zeroRingBuffer.contents = [] := rfl

/-! ## Checked accesses are defined -/

theorem RingBuffer.wrap_eq {rb : RingBuffer} (h : 0 < rb.capacity) (i : Nat) :
    rb.wrap i = some (i % rb.capacity) :=
  if_neg h.ne'

theorem RingBuffer.load_eq {rb : RingBuffer} {i : Nat} (h : i < ringBufferStorageCapacity) :
    rb.load i = some (rb.cell i) := by
  simp only [load, cell, dif_pos h]

theorem RingBuffer.cell_update {rb : RingBuffer} {i : Nat} (h : i < ringBufferStorageCapacity)
    (value : UInt8) :
    RingBuffer.cell { rb with storage := Function.update rb.storage ⟨i, h⟩ value } =
      Function.update rb.cell i value := by
  funext j
  by_cases hj : j = i
  · subst hj
    simp [cell, h]
  · rw [Function.update_of_ne hj]
    unfold cell
    split_ifs with hlt
    · exact Function.update_of_ne (fun hf => hj (Fin.mk.inj_iff.1 hf)) ..
    · rfl

theorem RingBuffer.WF.peek_eq {rb : RingBuffer} (h : rb.WF) {i : Nat} (hi : i < rb.size) :
    rb.peek i = rb.contents[i]? := by
  have hcap : 0 < rb.capacity := lt_of_le_of_lt (Nat.zero_le i) (hi.trans_le h.size_le)
  have hlt : (rb.head + i) % rb.capacity < ringBufferStorageCapacity :=
    (Nat.mod_lt _ hcap).trans_le h.capacity_le
  rw [contents, getElem?_window hi, peek, wrap_eq hcap]
  exact load_eq hlt

/-- The scan at offset `i` sees the byte that heads the contents from `i` on. -/
theorem RingBuffer.WF.peek_cons {rb : RingBuffer} (h : rb.WF) {i : Nat} (hi : i < rb.size) :
    ∃ value, rb.peek i = some value ∧ rb.contents.drop i = value :: rb.contents.drop (i + 1) := by
  have hlen : i < rb.contents.length := by rwa [length_contents]
  exact ⟨rb.contents[i], by rw [h.peek_eq hi, List.getElem?_eq_getElem hlen],
    List.drop_eq_getElem_cons hlen⟩

/-! ## Writing and reading bytes -/

/-- One turn of the write loop on a ring with room. -/
theorem ringWriteBytes_cons {rb : RingBuffer} (h : rb.WF) (hroom : rb.size < rb.capacity)
    (byte : UInt8) (data : List UInt8) :
    ∃ rb₁, rb₁.WF ∧ rb₁.capacity = rb.capacity ∧ rb₁.size = rb.size + 1 ∧
      rb₁.contents = rb.contents ++ [byte] ∧
      ringWriteBytes rb (byte :: data) =
        (ringWriteBytes rb₁ data).map fun out => (out.1 + 1, out.2) := by
  have hcap : 0 < rb.capacity := by omega
  have htail : rb.tail < ringBufferStorageCapacity := (h.tail_lt hcap).trans_le h.capacity_le
  refine ⟨⟨Function.update rb.storage ⟨rb.tail, htail⟩ byte, rb.head, (rb.tail + 1) % rb.capacity,
    rb.size + 1, rb.capacity⟩, ⟨h.capacity_le, hroom, h.head_lt, h.head_zero, ?_⟩, rfl, rfl, ?_, ?_⟩
  · show (rb.tail + 1) % rb.capacity = (rb.head + (rb.size + 1)) % rb.capacity
    rw [h.tail_eq, Nat.mod_add_mod, Nat.add_assoc]
  · show window (RingBuffer.cell { rb with storage := _ }) rb.capacity rb.head (rb.size + 1) = _
    rw [RingBuffer.cell_update htail, h.tail_eq]
    exact window_push hroom byte
  · rw [ringWriteBytes, if_pos hroom]
    simp only [RingBuffer.store, dif_pos htail, RingBuffer.wrap, hcap.ne', if_false,
      Option.bind_eq_bind, Option.bind_some, Option.pure_def]
    rw [Option.map_eq_bind]
    rfl

theorem ringWriteBytes_spec {rb : RingBuffer} (h : rb.WF) (data : List UInt8) :
    ∃ rb', ringWriteBytes rb data = some (min data.length (rb.capacity - rb.size), rb') ∧
      rb'.WF ∧ rb'.capacity = rb.capacity ∧
      rb'.contents = rb.contents ++ data.take (rb.capacity - rb.size) := by
  induction data generalizing rb with
  | nil => exact ⟨rb, by simp [ringWriteBytes], h, rfl, by simp⟩
  | cons byte data ih =>
    by_cases hroom : rb.size < rb.capacity
    · obtain ⟨rb₁, h₁, hcap, hsize, hcontents, hstep⟩ := ringWriteBytes_cons h hroom byte data
      obtain ⟨rb', hrun, hwf, hcap', hcontents'⟩ := ih h₁
      have hfree : rb.capacity - rb.size = rb₁.capacity - rb₁.size + 1 := by omega
      refine ⟨rb', ?_, hwf, hcap'.trans hcap, ?_⟩
      · rw [hstep, hrun, hfree]
        simp [Nat.succ_min_succ]
      · rw [hcontents', hcontents, hfree, List.take_succ_cons, List.append_assoc,
          List.singleton_append]
    · have hfull : rb.capacity - rb.size = 0 := by omega
      exact ⟨rb, by simp [ringWriteBytes, hroom, hfull], h, rfl, by simp [hfull]⟩

/-- One turn of the read loop on a non-empty ring. -/
theorem ringReadBytes_succ {rb : RingBuffer} (h : rb.WF) (hsize : 0 < rb.size) (length : Nat) :
    ∃ byte rb₁, rb₁.WF ∧ rb₁.capacity = rb.capacity ∧ rb.contents = byte :: rb₁.contents ∧
      ringReadBytes rb (length + 1) =
        (ringReadBytes rb₁ length).map fun out => (byte :: out.1, out.2) := by
  have hcap : 0 < rb.capacity := hsize.trans_le h.size_le
  have hhead := h.head_lt hcap
  have hmod : (rb.head + 1) % rb.capacity < rb.capacity := Nat.mod_lt _ hcap
  refine ⟨rb.cell rb.head, ⟨rb.storage, (rb.head + 1) % rb.capacity, rb.tail, rb.size - 1,
    rb.capacity⟩, ⟨h.capacity_le, ?_, fun _ => hmod, fun h0 => absurd h0 hcap.ne', ?_⟩, rfl, ?_, ?_⟩
  · exact (Nat.sub_le _ _).trans h.size_le
  · show rb.tail = ((rb.head + 1) % rb.capacity + (rb.size - 1)) % rb.capacity
    rw [h.tail_eq, Nat.mod_add_mod]
    congr 1
    omega
  · obtain ⟨n, hn⟩ := Nat.exists_eq_add_of_lt hsize
    rw [Nat.zero_add] at hn
    show window rb.cell rb.capacity rb.head rb.size =
      _ :: window rb.cell rb.capacity ((rb.head + 1) % rb.capacity) (rb.size - 1)
    rw [hn, window_cons, window_mod_head, Nat.mod_eq_of_lt hhead, Nat.add_sub_cancel]
  · rw [ringReadBytes, if_pos hsize, RingBuffer.load_eq (hhead.trans_le h.capacity_le)]
    simp only [RingBuffer.wrap, hcap.ne', if_false, Option.bind_eq_bind, Option.bind_some,
      Option.pure_def]
    rw [Option.map_eq_bind]
    rfl

theorem ringReadBytes_spec {rb : RingBuffer} (h : rb.WF) (length : Nat) :
    ∃ rb', ringReadBytes rb length = some (rb.contents.take length, rb') ∧
      rb'.WF ∧ rb'.capacity = rb.capacity ∧ rb'.contents = rb.contents.drop length := by
  induction length generalizing rb with
  | zero => exact ⟨rb, by simp [ringReadBytes], h, rfl, by simp⟩
  | succ length ih =>
    by_cases hsize : 0 < rb.size
    · obtain ⟨byte, rb₁, h₁, hcap, hcontents, hstep⟩ := ringReadBytes_succ h hsize length
      obtain ⟨rb', hrun, hwf, hcap', hcontents'⟩ := ih h₁
      exact ⟨rb', by rw [hstep, hrun, hcontents]; rfl, hwf, hcap'.trans hcap,
        by rw [hcontents', hcontents]; rfl⟩
    · have hnil : rb.contents = [] :=
        List.eq_nil_of_length_eq_zero (by rw [length_contents]; omega)
      exact ⟨rb, by simp [ringReadBytes, hsize, hnil], h, rfl, by simp [hnil]⟩

/-! ## Scanning -/

theorem ringFrameCountLoop_spec {rb : RingBuffer} (h : rb.WF) {n i : Nat} (hn : i + n = rb.size)
    (frames payloadBytes : Nat) (inFrame : Bool) :
    ringFrameCountLoop rb n i frames payloadBytes inFrame =
      some (frames + frameCountFrom (rb.contents.drop i) payloadBytes inFrame) := by
  induction n generalizing i frames payloadBytes inFrame with
  | zero =>
    rw [List.drop_of_length_le (by rw [length_contents]; omega)]
    rfl
  | succ n ih =>
    obtain ⟨value, hpeek, hdrop⟩ := h.peek_cons (show i < rb.size by omega)
    rw [ringFrameCountLoop, hpeek, hdrop, frameCountFrom]
    simp only [Option.bind_eq_bind, Option.bind_some]
    split_ifs
    · rw [ih (by omega), Nat.add_assoc]
    · rw [ih (by omega), Nat.zero_add]
    · rw [ih (by omega)]
    · rw [ih (by omega)]

theorem ringFrameCount_spec {rb : RingBuffer} (h : rb.WF) :
    ringFrameCount rb = some (frameCount rb.contents) := by
  rw [ringFrameCount, ringFrameCountLoop_spec h (Nat.zero_add _), Nat.zero_add]
  rfl

theorem ringHasCompleteFrameLoop_spec {rb : RingBuffer} (h : rb.WF) {n i : Nat}
    (hn : i + n = rb.size) (sawStart : Bool) :
    ringHasCompleteFrameLoop rb n i sawStart =
      some (decide (2 ≤ (rb.contents.drop i).count frameDelimiter + sawStart.toNat)) := by
  induction n generalizing i sawStart with
  | zero =>
    rw [List.drop_of_length_le (by rw [length_contents]; omega)]
    cases sawStart <;> rfl
  | succ n ih =>
    obtain ⟨value, hpeek, hdrop⟩ := h.peek_cons (show i < rb.size by omega)
    rw [ringHasCompleteFrameLoop, hpeek, hdrop]
    simp only [Option.bind_eq_bind, Option.bind_some, Option.pure_def]
    by_cases hv : value = frameDelimiter
    · subst hv
      cases sawStart
      · rw [if_pos rfl, if_neg (by simp), ih (by omega)]
        simp
      · simp
    · rw [if_neg hv, ih (by omega), List.count_cons_of_ne hv]

theorem ringHasCompleteFrame_spec {rb : RingBuffer} (h : rb.WF) :
    ringHasCompleteFrame rb = some (decide (2 ≤ rb.contents.count frameDelimiter)) :=
  ringHasCompleteFrameLoop_spec h (Nat.zero_add _) false

/-! ## Moving frames -/

/-- One turn of the extraction loop, once the next byte is known. -/
theorem ringReadFrameLoop_succ {rb rb₁ : RingBuffer} {byte : UInt8} (hsize : 0 < rb.size)
    (hread : ringReadBytes rb 1 = some ([byte], rb₁)) (frameCapacity n : Nat)
    (frame : List UInt8) :
    ringReadFrameLoop frameCapacity (n + 1) rb frame =
      if frame.length = 0 then
        if byte ≠ frameDelimiter then ringReadFrameLoop frameCapacity n rb₁ frame
        else ringReadFrameLoop frameCapacity n rb₁ (frame ++ [byte])
      else if frameCapacity ≤ frame.length then some (⟨.errorInvalidFrame, frame, none⟩, rb₁)
      else if byte = frameDelimiter then
        some (⟨.ok, frame ++ [byte], some (frame ++ [byte]).length⟩, rb₁)
      else ringReadFrameLoop frameCapacity n rb₁ (frame ++ [byte]) := by
  rw [ringReadFrameLoop, if_pos hsize, hread]
  rfl

theorem ringReadFrameLoop_spec {rb : RingBuffer} (h : rb.WF) (frameCapacity : Nat)
    {n : Nat} (hn : n = rb.size) (frame : List UInt8) :
    ∃ rb', ringReadFrameLoop frameCapacity n rb frame =
        some ((readFrameFrom frameCapacity rb.contents frame).1, rb') ∧ rb'.WF ∧
      rb'.capacity = rb.capacity ∧
      rb'.contents = (readFrameFrom frameCapacity rb.contents frame).2 := by
  induction n generalizing rb frame with
  | zero =>
    have hnil : rb.contents = [] :=
      List.eq_nil_of_length_eq_zero (by rw [length_contents]; omega)
    exact ⟨rb, by rw [hnil]; rfl, h, rfl, by rw [hnil]; rfl⟩
  | succ n ih =>
    have hsize : 0 < rb.size := by omega
    obtain ⟨byte, rb₁, h₁, hcap, hcontents, hstep⟩ := ringReadBytes_succ h hsize 0
    have hsize₁ : n = rb₁.size := by
      have := congrArg List.length hcontents
      simp only [length_contents, List.length_cons] at this
      omega
    rw [ringReadFrameLoop_succ hsize hstep, hcontents, readFrameFrom, ← hcap]
    by_cases hopen : frame.length = 0
    · by_cases hd : byte ≠ frameDelimiter
      · simpa only [if_pos hopen, if_pos hd] using ih h₁ hsize₁ frame
      · simpa only [if_pos hopen, if_neg hd] using ih h₁ hsize₁ (frame ++ [byte])
    · by_cases hfull : frameCapacity ≤ frame.length
      · exact ⟨rb₁, by simp only [if_neg hopen, if_pos hfull], h₁, rfl,
          by simp only [if_neg hopen, if_pos hfull]⟩
      · by_cases hd : byte = frameDelimiter
        · exact ⟨rb₁, by simp only [if_neg hopen, if_neg hfull, if_pos hd], h₁, rfl,
            by simp only [if_neg hopen, if_neg hfull, if_pos hd]⟩
        · simpa only [if_neg hopen, if_neg hfull, if_neg hd] using ih h₁ hsize₁ (frame ++ [byte])

theorem ringReadFrame_spec {rb : RingBuffer} (h : rb.WF) {frameCapacity : Nat}
    (hpos : 0 < frameCapacity) :
    ∃ rb', ringReadFrame rb .valid frameCapacity .valid =
        some ((readFrame frameCapacity rb.contents).1, rb') ∧ rb'.WF ∧
      rb'.capacity = rb.capacity ∧ rb'.contents = (readFrame frameCapacity rb.contents).2 := by
  rw [ringReadFrame, if_neg (by simp [hpos.ne'])]
  exact ringReadFrameLoop_spec h frameCapacity rfl []

theorem ringReadFrame_rejected (rb : RingBuffer) {frame frameLength : Ptr} {frameCapacity : Nat}
    (h : frame = .null ∨ frameLength = .null ∨ frameCapacity = 0) :
    ringReadFrame rb frame frameCapacity frameLength =
      some (⟨.errorInvalidArgument, [], none⟩, rb) :=
  if_pos h

/-- What a transfer does to the bytes in the destination, and its status. -/
def transferOutcome (reply : FrameReply) (room : Nat) (destination : List UInt8) :
    Error × List UInt8 :=
  if reply.status ≠ .ok then (reply.status, destination)
  else (if reply.frame.length ≤ room then .ok else .errorInvalidFrame,
    destination ++ reply.frame.take room)

theorem ringTransferFrame_spec {source destination : RingBuffer} (hs : source.WF)
    (hd : destination.WF) :
    ∃ out, ringTransferFrame source destination = some out ∧ out.2.1.WF ∧ out.2.2.WF ∧
      out.2.1.capacity = source.capacity ∧ out.2.2.capacity = destination.capacity ∧
      out.2.1.contents = (readFrame maxEncodedByteCount source.contents).2 ∧
      (out.1, out.2.2.contents) =
        transferOutcome (readFrame maxEncodedByteCount source.contents).1
          (destination.capacity - destination.size) destination.contents := by
  obtain ⟨source', hread, hs', hscap, hscontents⟩ := ringReadFrame_spec hs
    (show 0 < maxEncodedByteCount by decide)
  generalize readFrame maxEncodedByteCount source.contents = read at *
  obtain ⟨reply, rest⟩ := read
  rw [ringTransferFrame, hread]
  simp only [Option.bind_eq_bind, Option.bind_some, Option.pure_def, transferOutcome]
  by_cases hok : reply.status ≠ .ok
  · rw [if_pos hok, if_pos hok]
    exact ⟨_, rfl, hs', hd, hscap, rfl, hscontents, rfl⟩
  · obtain ⟨destination', hwrite, hd', hdcap, hdcontents⟩ := ringWriteBytes_spec hd reply.frame
    rw [if_neg hok, if_neg hok, hwrite]
    simp only [Option.bind_some]
    by_cases hfit : reply.frame.length ≤ destination.capacity - destination.size
    · rw [if_neg (by simp [hfit]), if_pos hfit]
      exact ⟨_, rfl, hs', hd', hscap, hdcap, hscontents, by rw [hdcontents]⟩
    · rw [if_pos (by simp; omega), if_neg hfit]
      exact ⟨_, rfl, hs', hd', hscap, hdcap, hscontents, by rw [hdcontents]⟩

theorem ringCanAcceptFrame_spec {rb : RingBuffer} (h : rb.WF) (maxFrameCount : Nat) :
    ringCanAcceptFrame rb maxFrameCount =
      some (decide (frameCount rb.contents < maxFrameCount ∧
        rb.size + maxEncodedByteCount ≤ rb.capacity)) := by
  rw [ringCanAcceptFrame, ringFrameCount_spec h]
  rfl

end Xr17v358
