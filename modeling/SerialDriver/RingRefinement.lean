import SerialDriver.RingBufferProof
import SerialDriver.Lib.BoundedFifo

/-!
# The ring buffer over whole runs

`RingOp` is a call of one of the three operations that move bytes, with any arguments. A run from
a reset buffer never executes an undefined step, keeps the representation invariant, and is, output
by output, the run of a bounded queue (`ringRun_refines`).
-/

namespace Xr17v358

/-! ## Runs -/

inductive RingOp
  | writeBytes (data : List UInt8)
  | readBytes (length : Nat)
  | readFrame (frame : Ptr) (frameCapacity : Nat) (frameLength : Ptr)

inductive RingOut
  | written (count : Nat)
  | bytes (data : List UInt8)
  | frame (reply : FrameReply)

def RingOp.exec : RingOp → RingBuffer → Option (RingOut × RingBuffer)
  | writeBytes data, rb => (ringWriteBytes rb data).map fun out => (.written out.1, out.2)
  | readBytes length, rb => (ringReadBytes rb length).map fun out => (.bytes out.1, out.2)
  | readFrame frame frameCapacity frameLength, rb =>
    (ringReadFrame rb frame frameCapacity frameLength).map fun out => (.frame out.1, out.2)

def ringRun : List RingOp → RingBuffer → Option (List RingOut × RingBuffer)
  | [], rb => some ([], rb)
  | op :: ops, rb => do
    let (out, rb) ← op.exec rb
    let (outs, rb) ← ringRun ops rb
    return (out :: outs, rb)

/-! ## The bounded queue -/

theorem length_readFrameFrom_le (frameCapacity : Nat) (s frame : List UInt8) :
    (readFrameFrom frameCapacity s frame).2.length ≤ s.length := by
  induction s generalizing frame with
  | nil => exact le_rfl
  | cons byte s ih =>
    rw [readFrameFrom, List.length_cons]
    split_ifs
    · exact (ih _).trans (Nat.le_succ _)
    · exact (ih _).trans (Nat.le_succ _)
    · exact Nat.le_succ _
    · exact Nat.le_succ _
    · exact (ih _).trans (Nat.le_succ _)

/-- What each operation does to a bounded queue of bytes. -/
def RingOp.spec : RingOp → BoundedFifo UInt8 → RingOut × BoundedFifo UInt8
  | writeBytes data, q => (.written (q.push data).1, (q.push data).2)
  | readBytes length, q => (.bytes (q.pop length).1, (q.pop length).2)
  | readFrame frame frameCapacity frameLength, q =>
    if frame = .null ∨ frameLength = .null ∨ frameCapacity = 0 then
      (.frame ⟨.errorInvalidArgument, [], none⟩, q)
    else
      (.frame (Xr17v358.readFrame frameCapacity q.items).1,
        q.shrink (Xr17v358.readFrame frameCapacity q.items).2 (length_readFrameFrom_le ..))

def specRun : List RingOp → BoundedFifo UInt8 → List RingOut × BoundedFifo UInt8
  | [], q => ([], q)
  | op :: ops, q => ((op.spec q).1 :: (specRun ops (op.spec q).2).1, (specRun ops (op.spec q).2).2)

/-! ## Refinement -/

/-- The queue a well-formed ring stands for. -/
def RingBuffer.abs (rb : RingBuffer) (h : rb.WF) : BoundedFifo UInt8 :=
  ⟨rb.capacity, rb.contents, by rw [length_contents]; exact h.size_le⟩

theorem RingBuffer.abs_room {rb : RingBuffer} (h : rb.WF) :
    (rb.abs h).room = rb.capacity - rb.size := by
  rw [BoundedFifo.room, abs, length_contents]

/-- One operation. -/
theorem RingOp.exec_refines (op : RingOp) {rb : RingBuffer} (h : rb.WF) :
    ∃ rb', ∃ h' : rb'.WF, op.exec rb = some ((op.spec (rb.abs h)).1, rb') ∧
      rb'.abs h' = (op.spec (rb.abs h)).2 := by
  cases op with
  | writeBytes data =>
    obtain ⟨rb', hrun, h', hcap, hcontents⟩ := ringWriteBytes_spec h data
    refine ⟨rb', h', ?_, BoundedFifo.ext hcap ?_⟩
    · show _ = some (RingOut.written (min data.length (rb.abs h).room), rb')
      rw [exec, hrun, RingBuffer.abs_room]
      rfl
    · show rb'.contents = rb.contents ++ data.take (rb.abs h).room
      rw [RingBuffer.abs_room, hcontents]
  | readBytes length =>
    obtain ⟨rb', hrun, h', hcap, hcontents⟩ := ringReadBytes_spec h length
    refine ⟨rb', h', ?_, BoundedFifo.ext hcap hcontents⟩
    rw [exec, hrun]
    rfl
  | readFrame frame frameCapacity frameLength =>
    by_cases hrej : frame = .null ∨ frameLength = .null ∨ frameCapacity = 0
    · refine ⟨rb, h, ?_, ?_⟩
      · rw [exec, ringReadFrame_rejected rb hrej, spec, if_pos hrej]
        rfl
      · rw [spec, if_pos hrej]
    · obtain ⟨hframe, hlength, hpos⟩ : frame = .valid ∧ frameLength = .valid ∧
          0 < frameCapacity := by
        rcases frame with _ | _ <;> rcases frameLength with _ | _ <;> simp_all [Nat.pos_iff_ne_zero]
      subst hframe hlength
      obtain ⟨rb', hrun, h', hcap, hcontents⟩ := ringReadFrame_spec h hpos
      refine ⟨rb', h', ?_, ?_⟩
      · rw [exec, hrun, spec, if_neg hrej]
        rfl
      · rw [spec, if_neg hrej]
        exact BoundedFifo.ext hcap hcontents

/-- A run of operations. -/
theorem ringRun_spec (ops : List RingOp) {rb : RingBuffer} (h : rb.WF) :
    ∃ rb', ∃ h' : rb'.WF, ringRun ops rb = some ((specRun ops (rb.abs h)).1, rb') ∧
      rb'.abs h' = (specRun ops (rb.abs h)).2 := by
  induction ops generalizing rb with
  | nil => exact ⟨rb, h, rfl, rfl⟩
  | cons op ops ih =>
    obtain ⟨rb₁, h₁, hexec, habs⟩ := op.exec_refines h
    obtain ⟨rb', h', hrun, habs'⟩ := ih h₁
    refine ⟨rb', h', ?_, ?_⟩
    · rw [ringRun, hexec]
      simp only [Option.bind_eq_bind, Option.bind_some, hrun, habs]
      rfl
    · rw [habs', habs]
      rfl

theorem capacity_specRun (ops : List RingOp) (q : BoundedFifo UInt8) :
    (specRun ops q).2.capacity = q.capacity := by
  induction ops generalizing q with
  | nil => rfl
  | cons op ops ih =>
    rw [specRun, ih]
    cases op with
    | readFrame frame frameCapacity frameLength =>
      rw [RingOp.spec]
      split_ifs <;> rfl
    | _ => rfl

/-- **The ring buffer refines a bounded queue.** After `ringReset` with a capacity that the storage
holds, every run of operations is defined, its outputs and its final contents are those of the
bounded queue, and the indices are in range. The scans depend on the contents alone. -/
theorem ringRun_refines (rb : RingBuffer) {c : Nat} (hc : c ≤ ringBufferStorageCapacity)
    (ops : List RingOp) :
    ∃ rb', ringRun ops (ringReset rb c) = some ((specRun ops (.empty c)).1, rb') ∧
      rb'.contents = (specRun ops (.empty c)).2.items ∧
      rb'.capacity = c ∧ rb'.size ≤ c ∧
      (0 < c → rb'.head < c ∧ rb'.tail < c ∧ rb'.tail = (rb'.head + rb'.size) % c) ∧
      (c = 0 → rb'.head = 0 ∧ rb'.tail = 0 ∧ rb'.size = 0) ∧
      (∀ data, ∃ rb'', ringWriteBytes rb' data = some (min data.length (c - rb'.size), rb'') ∧
        rb''.contents = rb'.contents ++ data.take (min data.length (c - rb'.size))) ∧
      (∀ n, ∃ rb'' out, ringReadBytes rb' n = some (out, rb'') ∧ out.length = min n rb'.size ∧
        out = rb'.contents.take n ∧ rb''.contents = rb'.contents.drop n) ∧
      ringFrameCount rb' = some (frameCount rb'.contents) ∧
      ringHasCompleteFrame rb' = some (decide (2 ≤ rb'.contents.count frameDelimiter)) := by
  have hwf := wf_ringReset rb hc
  have habs₀ : (ringReset rb c).abs hwf = .empty c := BoundedFifo.ext rfl rfl
  obtain ⟨rb', h', hrun, habs⟩ := ringRun_spec ops hwf
  rw [habs₀] at hrun habs
  have hcap : rb'.capacity = c := by
    show (rb'.abs h').capacity = c
    rw [habs, capacity_specRun]
    rfl
  subst hcap
  refine ⟨rb', hrun, congrArg BoundedFifo.items habs, rfl, h'.size_le, ?_, ?_, ?_, ?_,
    ringFrameCount_spec h', ringHasCompleteFrame_spec h'⟩
  · exact fun hpos => ⟨h'.head_lt hpos, h'.tail_lt hpos, h'.tail_eq⟩
  · intro hzero
    have hsize : rb'.size = 0 := by
      have := h'.size_le
      omega
    refine ⟨h'.head_zero hzero, ?_, hsize⟩
    rw [h'.tail_eq, h'.head_zero hzero, hsize, Nat.zero_mod]
  · intro data
    obtain ⟨rb'', hwrite, -, -, hcontents⟩ := ringWriteBytes_spec h' data
    refine ⟨rb'', hwrite, ?_⟩
    rw [hcontents, Nat.min_comm, ← List.take_take, List.take_length]
  · intro n
    obtain ⟨rb'', hread, -, -, hcontents⟩ := ringReadBytes_spec h' n
    exact ⟨rb'', _, hread, by simp, rfl, hcontents⟩

theorem ringRun_refines_two : ∃ rb',
    ringRun [.writeBytes [1, 2, 3], .readBytes 1] (ringReset zeroRingBuffer 2) =
      some ([.written 2, .bytes [1]], rb') ∧ rb'.contents = [2] := by
  obtain ⟨rb', hrun, hcontents, -⟩ := ringRun_refines zeroRingBuffer (c := 2) (by decide)
    [.writeBytes [1, 2, 3], .readBytes 1]
  exact ⟨rb', hrun, hcontents⟩

end Xr17v358
