import SerialDriver.Guards

/-!
# The caller's buffers

None of the calls of `Call` stores more bytes than the caller's buffer holds, in any state and
whatever the rings and the device hold. A reading call stores through its out-parameter exactly on
success, and then the number of bytes it stored; without an out-parameter it stores nothing at all. A
writing call never counts more bytes than it was given (`callerBuffers_fit`). The one loop that fills
a buffer a packet at a time is in `xr17v358_queue_read` (`queueReadLoop_fits`).
-/

namespace Xr17v358

/-- The bytes that may be stored through the pointer. -/
def OutBuffer.room (buf : OutBuffer) : Nat := if buf.ptr = .null then 0 else buf.length

theorem OutBuffer.room_eq {buf : OutBuffer} (h : ¬ buf.missing) : buf.room = buf.length := by
  unfold room
  split_ifs with hnull
  · simp only [missing, hnull, true_and, decide_eq_true_eq, not_lt] at h
    exact (Nat.le_zero.1 h).symm
  · rfl

/-- The count is stored on success only, and is the number of bytes stored. -/
def Reply.CountsStored (reply : Reply) : Prop :=
  reply.count = if reply.status = .ok then some reply.data.length else none

/-- What a call that reads into `buf` may reply. -/
structure Reply.FitsRead (buf : OutBuffer) (ptr : Ptr) (reply : Reply) : Prop where
  stored : reply.data.length ≤ buf.room
  counted : reply.CountsStored
  pointer : ptr = .null → reply.count = none ∧ reply.data = []

/-- What a call that writes `buf` may reply. -/
structure Reply.FitsWrite (buf : InBuffer) (ptr : Ptr) (reply : Reply) : Prop where
  stored : reply.data = []
  counted : ∀ count, reply.count = some count → count ≤ buf.length
  pointer : ptr = .null → reply.count = none

/-- The output buffer and out-parameter of a reading call. -/
def Call.outBuffer : Call → Option (OutBuffer × Ptr)
  | read _ data ptr | readRxFifo _ _ data ptr | readHw _ _ data ptr | queueRead _ data ptr =>
    some (data, ptr)
  | _ => none

/-- The input buffer and out-parameter of a writing call. -/
def Call.inBuffer : Call → Option (InBuffer × Ptr)
  | write _ data ptr | writeTxFifo _ _ data ptr | writeHw _ _ data ptr | receive _ data ptr
  | injectRxFrameBytes _ data ptr | injectTxFrameBytes _ data ptr
  | injectQueueFrameBytes _ data ptr => some (data, ptr)
  | _ => none

/-! ## Reading calls -/

section Read

variable {buf : OutBuffer} {ptr : Ptr}

theorem fitsRead_code {status : Error} (h : status ≠ .ok) :
    (Reply.code status).FitsRead buf ptr :=
  ⟨Nat.zero_le _, (if_neg h).symm, fun _ => ⟨rfl, rfl⟩⟩

theorem fitsRead_returned {data : List UInt8} (hargs : ¬ (ptr = .null ∨ buf.missing))
    (h : data.length ≤ buf.length) : (Reply.returned data).FitsRead buf ptr := by
  obtain ⟨hptr, hbuf⟩ := not_or.1 hargs
  exact ⟨h.trans_eq (OutBuffer.room_eq hbuf).symm, rfl, fun hnull => absurd hnull hptr⟩

theorem readFromStagedRx_fits (hargs : ¬ (ptr = .null ∨ buf.missing)) (portIndex : Nat)
    (port : Port) : (readFromStagedRx portIndex port buf.length).1.FitsRead buf ptr := by
  unfold readFromStagedRx
  dsimp only
  split_ifs with herror hframe
  · exact fitsRead_code herror
  · exact fitsRead_code (by decide)
  · refine fitsRead_returned hargs ?_
    rw [Ring.readBytes_fst]
    exact List.length_take_le ..

/-- The bytes copied so far fit, whatever the turn does. -/
theorem queueReadLoop_fits (portIndex length n : Nat) (txFifo : Ring) {out : List UInt8}
    (hout : out.length ≤ length) :
    (queueReadLoop portIndex length n txFifo out).1.data.length ≤ length ∧
      (queueReadLoop portIndex length n txFifo out).1.CountsStored := by
  induction n generalizing txFifo out with
  | zero => exact ⟨hout, rfl⟩
  | succ n ih =>
    unfold queueReadLoop
    dsimp only
    split_ifs with hroom hcomplete hframe hdecoded hfits
    · exact ⟨hout, (if_neg hframe).symm⟩
    · exact ⟨hout, (if_neg hdecoded).symm⟩
    · exact ⟨hout, rfl⟩
    · apply ih
      rw [List.length_append]
      omega
    · exact ⟨hout, rfl⟩
    · exact ⟨hout, rfl⟩

theorem queueReadLoop_fitsRead (hargs : ¬ (ptr = .null ∨ buf.missing)) (portIndex n : Nat)
    (txFifo : Ring) : (queueReadLoop portIndex buf.length n txFifo []).1.FitsRead buf ptr := by
  obtain ⟨hstored, hcounted⟩ :=
    @queueReadLoop_fits portIndex buf.length n txFifo [] (Nat.zero_le _)
  obtain ⟨hptr, hbuf⟩ := not_or.1 hargs
  exact ⟨hstored.trans_eq (OutBuffer.room_eq hbuf).symm, hcounted, fun hnull => absurd hnull hptr⟩

theorem readRxFifo_fits (m : DeviceMemory) (deviceBase : Option Nat) (portIndex : Nat) :
    (readRxFifo m deviceBase portIndex buf ptr).1.FitsRead buf ptr := by
  cases deviceBase with
  | none => exact fitsRead_code (by decide)
  | some deviceBase =>
    by_cases hargs : ptr = .null ∨ buf.missing
    · simp only [readRxFifo, if_pos hargs]
      exact fitsRead_code (by decide)
    · by_cases hindex : portIndex < getPortCount
      · rw [readRxFifo_valid hargs m deviceBase ⟨portIndex, hindex⟩,
          readRxFifo_eq m deviceBase ⟨portIndex, hindex⟩]
        refine fitsRead_returned hargs ?_
        rw [length_peekWindow]
        exact min_le_left ..
      · simp only [readRxFifo, if_neg hargs, dif_neg hindex]
        exact fitsRead_code (by decide)

variable {d : Driver} {m : DeviceMemory} {c : Call}

theorem fitsRead_of_outBuffer (h : c.outBuffer = some (buf, ptr)) :
    (Event.mk d m c).reply.FitsRead buf ptr := by
  cases c with
  | read portIndex data ptr =>
    obtain ⟨rfl, rfl⟩ := Prod.mk.inj (Option.some.inj h)
    refine onPort_hands (fitsRead_code (by decide)) ?_
    intro p port
    split_ifs with hargs
    · exact fitsRead_code (by decide)
    · exact readFromStagedRx_fits hargs p port
  | queueRead portIndex data ptr =>
    obtain ⟨rfl, rfl⟩ := Prod.mk.inj (Option.some.inj h)
    refine onPort_hands (fitsRead_code (by decide)) ?_
    intro p port
    split_ifs with hargs
    · exact fitsRead_code (by decide)
    · exact queueReadLoop_fitsRead hargs p port.txFifo.size port.txFifo
  | readRxFifo deviceBase portIndex data ptr =>
    obtain ⟨rfl, rfl⟩ := Prod.mk.inj (Option.some.inj h)
    exact readRxFifo_fits m deviceBase portIndex
  | readHw deviceBase portIndex data ptr =>
    obtain ⟨rfl, rfl⟩ := Prod.mk.inj (Option.some.inj h)
    refine @onPort_hands _ _ _ _ _ (fun out : Reply × DeviceMemory => out.1.FitsRead data ptr)
      (fitsRead_code (by decide)) ?_
    intro p port
    cases deviceBase with
    | none => exact fitsRead_code (by decide)
    | some deviceBase =>
      simp only [stageRxBytesFromHw_eq, ne_eq, not_true_eq_false, if_false]
      split_ifs with hargs
      · exact fitsRead_code (by decide)
      · exact readFromStagedRx_fits hargs p _
  | _ => exact absurd h (by simp [Call.outBuffer])

end Read

/-! ## Writing calls -/

section Write

variable {buf : InBuffer} {ptr : Ptr}

theorem InBuffer.length_toList_le (buf : InBuffer) : buf.toList.length ≤ buf.length := by
  cases buf with
  | null length => exact Nat.zero_le _
  | bytes data => exact le_rfl

theorem fitsWrite_code (status : Error) : (Reply.code status).FitsWrite buf ptr :=
  ⟨rfl, (fun _ h => nomatch h), fun _ => rfl⟩

theorem fitsWrite_counted {status : Error} {count : Nat}
    (hargs : ¬ (ptr = .null ∨ buf.missing)) (h : count ≤ buf.length) :
    Reply.FitsWrite buf ptr { status := status, count := some count } := by
  refine ⟨rfl, ?_, fun hnull => absurd (.inl hnull) hargs⟩
  rintro _ ⟨⟩
  exact h

theorem enqueuePacket_count_le (portIndex : Nat) (ring : Ring) (buf : InBuffer) :
    (enqueuePacket portIndex ring buf).2.1 ≤ buf.length := by
  rw [enqueuePacket_eq]
  split_ifs
  · exact buf.length_toList_le
  · exact Nat.zero_le _

theorem injectFrameBytes_fits (buffer : Port → Ring) (replace : Port → Ring → Port) (d : Driver)
    (portIndex : Nat) : (injectFrameBytes buffer replace d portIndex buf ptr).1.FitsWrite buf ptr := by
  refine onPort_hands (fitsWrite_code _) ?_
  intro p port
  split_ifs with hargs
  · exact fitsWrite_code _
  · refine fitsWrite_counted hargs ?_
    rw [Ring.writeBytes_fst]
    exact (min_le_left ..).trans buf.length_toList_le

theorem writeTxFifo_fits (m : DeviceMemory) (deviceBase : Option Nat) (portIndex : Nat) :
    (writeTxFifo m deviceBase portIndex buf ptr).1.FitsWrite buf ptr := by
  cases deviceBase with
  | none => exact fitsWrite_code _
  | some deviceBase =>
    unfold writeTxFifo
    dsimp only
    split_ifs with hargs hindex hlong
    · exact fitsWrite_code _
    · exact fitsWrite_counted hargs hlong.le
    · exact fitsWrite_counted hargs le_rfl
    · exact fitsWrite_code _

variable {d : Driver} {m : DeviceMemory} {c : Call}

theorem fitsWrite_of_inBuffer (h : c.inBuffer = some (buf, ptr)) :
    (Event.mk d m c).reply.FitsWrite buf ptr := by
  cases c with
  | write portIndex data ptr | receive portIndex data ptr =>
    obtain ⟨rfl, rfl⟩ := Prod.mk.inj (Option.some.inj h)
    refine onPort_hands (fitsWrite_code _) ?_
    intro p port
    split_ifs with hargs
    · exact fitsWrite_code _
    · exact fitsWrite_counted hargs (enqueuePacket_count_le ..)
  | injectRxFrameBytes portIndex data ptr | injectTxFrameBytes portIndex data ptr
  | injectQueueFrameBytes portIndex data ptr =>
    obtain ⟨rfl, rfl⟩ := Prod.mk.inj (Option.some.inj h)
    exact injectFrameBytes_fits _ _ d portIndex
  | writeTxFifo deviceBase portIndex data ptr =>
    obtain ⟨rfl, rfl⟩ := Prod.mk.inj (Option.some.inj h)
    exact writeTxFifo_fits m deviceBase portIndex
  | writeHw deviceBase portIndex data ptr =>
    obtain ⟨rfl, rfl⟩ := Prod.mk.inj (Option.some.inj h)
    refine @onPort_hands _ _ _ _ _ (fun out : Reply × DeviceMemory => out.1.FitsWrite data ptr)
      (fitsWrite_code _) ?_
    intro p port
    cases deviceBase with
    | none => exact fitsWrite_code _
    | some deviceBase =>
      simp only [flushTxQueueToHw_eq, ne_eq, not_true_eq_false, if_false]
      split_ifs with hargs hrefused
      · exact fitsWrite_code _
      · exact fitsWrite_counted hargs (Nat.zero_le _)
      · exact fitsWrite_counted hargs (enqueuePacket_count_le ..)
  | _ => exact absurd h (by simp [Call.inBuffer])

end Write

/-- **No call overruns the caller's buffers.** In any state of the driver and of the device, with any
arguments. A call without an output buffer stores no bytes. -/
theorem callerBuffers_fit (d : Driver) (m : DeviceMemory) (c : Call) :
    (∀ buf ptr, c.outBuffer = some (buf, ptr) → (Event.mk d m c).reply.FitsRead buf ptr) ∧
      (∀ buf ptr, c.inBuffer = some (buf, ptr) → (Event.mk d m c).reply.FitsWrite buf ptr) ∧
      (c.outBuffer = none → (Event.mk d m c).reply.data = []) := by
  refine ⟨fun _ _ => fitsRead_of_outBuffer, fun _ _ => fitsWrite_of_inBuffer, ?_⟩
  intro hout
  cases c with
  | write | writeTxFifo | writeHw | receive | injectRxFrameBytes | injectTxFrameBytes
  | injectQueueFrameBytes => exact (fitsWrite_of_inBuffer rfl).stored
  | read | readRxFifo | readHw | queueRead => exact absurd hout (by simp [Call.outBuffer])
  | getPortConfig | transferNextTxFrame =>
    refine @onPort_hands _ _ _ _ _ (fun reply : Reply => reply.data = []) rfl ?_
    intro p port
    split_ifs <;> rfl
  | initializePort | pollPort =>
    refine @onPort_hands _ _ _ _ _ (fun reply : Reply => reply.data = []) rfl ?_
    intro p port
    dsimp only
    split_ifs <;> rfl
  | pollHwPort deviceBase =>
    refine @onPort_hands _ _ _ _ _ (fun out : Reply × DeviceMemory => out.1.data = []) rfl ?_
    intro p port
    cases deviceBase with
    | none => rfl
    | some deviceBase =>
      dsimp only
      split_ifs <;> rfl
  | getUartBase portIndex ptr =>
    show (getUartBase portIndex ptr).data = []
    unfold getUartBase
    split_ifs <;> rfl
  | getTxFifoBase portIndex ptr =>
    show (getTxFifoBase portIndex ptr).data = []
    unfold getTxFifoBase
    split_ifs <;> rfl
  | setDiscrete deviceBase portIndex asserted =>
    show (setDiscrete m deviceBase portIndex asserted).1.data = []
    cases deviceBase with
    | none => rfl
    | some deviceBase =>
      unfold setDiscrete
      dsimp only
      split_ifs <;> rfl
  | setLoopback deviceBase portIndex enabled =>
    show (setLoopback m deviceBase portIndex enabled).1.data = []
    cases deviceBase with
    | none => rfl
    | some deviceBase =>
      unfold setLoopback
      dsimp only
      split_ifs <;> rfl
  | fifoLevel | queueSize | resetState | reset => rfl

end Xr17v358
