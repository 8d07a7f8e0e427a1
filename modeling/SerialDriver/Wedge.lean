import SerialDriver.PortEffects

/-!
# A full receive buffer

Bytes leave `rx_fifo` only when it holds two delimiters, and enter it only while it has room. So a
full `rx_fifo` with fewer than two delimiters, and nothing decoded, stays as it is whatever is read
or polled (`Wedged`); every other full `rx_fifo` makes progress at the next read
(`rxFull_progress_iff`).
-/

namespace Xr17v358

open Incremental

/-- The calls that poll and read. -/
def Call.IsReceive : Call → Prop
  | pollPort _ | pollHwPort .. | read .. | readHw .. => True
  | _ => False

/-- `rx_fifo` holds all the bytes it can. -/
def Port.RxFull (port : Port) : Prop := port.rxFifo.size = ringBufferStorageCapacity

/-- Two delimiters are buffered, or decoded bytes wait to be read. -/
def Port.CanProgress (port : Port) : Prop :=
  2 ≤ port.rxFifo.contents.count frameDelimiter ∨ port.rxQueue.contents ≠ []

/-- A read of `length` bytes delivers something or makes `rx_fifo` smaller. -/
def ReadProgresses (d : Driver) (p : PortIndex) (length : Nat) : Prop :=
  (read d p ⟨.valid, length⟩ .valid).1.data ≠ [] ∨
    ((read d p ⟨.valid, length⟩ .valid).2.ports p).rxFifo.size < (d.ports p).rxFifo.size

/-- Whatever is polled and read from here on, `rx_fifo` stays full of the same bytes, and no read
returns any. -/
def Wedged (d : Driver) (p : PortIndex) : Prop :=
  ∀ es d', Run Call.IsReceive d es d' →
    (d'.ports p).RxFull ∧ (d'.ports p).rxFifo.contents = (d.ports p).rxFifo.contents ∧
      returned Call.takes p es = []

/-! ## Progress -/

theorem Pass.shrinks {fifo queue fifo' queue' : List UInt8} {room : Nat} {e : Error}
    (h : Pass fifo queue room e fifo' queue') (hcount : 2 ≤ fifo.count frameDelimiter)
    (hroom : 0 < room) : fifo'.length < fifo.length := by
  obtain ⟨os, hsteps, -, hitems⟩ := h.items
  have hlength := hsteps.length_le
  have hpos := List.length_pos_iff.2 (hitems hcount hroom)
  omega

theorem readFromStagedRx_progress (portIndex : Nat) {port : Port} {length : Nat}
    (hlength : 0 < length) (hprogress : port.CanProgress)
    (hqueue : port.rxQueue.room = 0 → port.rxQueue.contents ≠ []) :
    (readFromStagedRx portIndex port length).1.data ≠ [] ∨
      (readFromStagedRx portIndex port length).2.rxFifo.contents.length <
        port.rxFifo.contents.length := by
  by_cases hpass : 2 ≤ port.rxFifo.contents.count frameDelimiter ∧ 0 < port.rxQueue.room
  · right
    obtain ⟨_, _, rxFifo, rxQueue, hrun, hread, -⟩ := readFromStagedRx_spec portIndex port length
    rw [hread]
    exact hrun.shrinks hpass.1 hpass.2
  · left
    have hidle : receiver.step port.rxFifo.contents = none ∨ port.rxQueue.room = 0 := by
      rw [step_eq_none_iff]
      omega
    have hne : port.rxQueue.contents ≠ [] := by
      rcases hprogress with hcount | hne
      · exact hqueue (by omega)
      · exact hne
    rw [readFromStagedRx_queued portIndex length hidle hne]
    exact take_ne_nil hne hlength

variable {d : Driver}

theorem readProgresses_iff (hd : d.Ready) (p : PortIndex)
    (hne : (d.ports p).rxFifo.contents ≠ []) {length : Nat} (hlength : 0 < length) :
    ReadProgresses d p length ↔ (d.ports p).CanProgress := by
  unfold ReadProgresses
  rw [read_reply hd p _ (by simp [OutBuffer.missing]), read_port hd,
    if_pos ⟨rfl, by simp [OutBuffer.missing]⟩, Ring.size_eq, Ring.size_eq]
  constructor
  · intro hprogress
    by_contra hstuck
    unfold Port.CanProgress at hstuck
    push Not at hstuck
    rw [readFromStagedRx_idle p length (step_eq_none_iff.2 hstuck.1) hstuck.2 hne] at hprogress
    rcases hprogress with hdata | hsize
    · exact hdata rfl
    · exact lt_irrefl _ hsize
  · intro hprogress
    exact readFromStagedRx_progress p hlength hprogress (hd.sized p).queue_ne_nil

/-! ## Nothing moves -/

/-- `rx_fifo` is full of these bytes and nothing is decoded. -/
structure Port.Stuck (port : Port) (bytes : List UInt8) : Prop where
  fifo : port.rxFifo.contents = bytes
  room : port.rxFifo.room = 0
  queue : port.rxQueue.contents = []

variable {port : Port} {bytes : List UInt8}

theorem Port.Stuck.stageHw (h : port.Stuck bytes) (m : DeviceMemory) (deviceBase : Nat)
    (p : PortIndex) : (stageRxBytesFromHw m deviceBase p port).2.1.Stuck bytes := by
  obtain ⟨rxFifo, _, hrun, -, hcap, hcontents⟩ := stageRxBytesFromHw_spec m deviceBase p port
  have hnone : stageCount m deviceBase p port = 0 := by
    rw [stageCount, h.room]
    simp
  rw [hnone] at hcontents
  have hsame : rxFifo.contents = port.rxFifo.contents := hcontents.trans (List.append_nil _)
  rw [hrun]
  refine ⟨hsame.trans h.fifo, ?_, h.queue⟩
  show rxFifo.room = 0
  rw [Ring.room, hcap, hsame]
  exact h.room

theorem Port.Stuck.stagePending (h : port.Stuck bytes) :
    (stageRxBytesFromPending port).2.Stuck bytes := by
  obtain ⟨-, -, hcap, -, hcontents⟩ :=
    transferRingBytes_spec port.rxPending port.rxFifo fifoCapacity
  have hnone : transferCount port.rxPending port.rxFifo fifoCapacity = 0 := by
    rw [transferCount, h.room]
    simp
  rw [hnone, List.take_zero, List.append_nil] at hcontents
  rw [stageRxBytesFromPending_snd]
  refine ⟨hcontents.trans h.fifo, ?_, h.queue⟩
  dsimp only
  rw [Ring.room, hcap, hcontents]
  exact h.room

theorem Port.Stuck.read (h : port.Stuck bytes) (hcount : bytes.count frameDelimiter < 2)
    (hne : bytes ≠ []) (portIndex length : Nat) :
    readFromStagedRx portIndex port length = (.code .errorInvalidFrame, port) :=
  readFromStagedRx_idle portIndex length (step_eq_none_iff.2 (h.fifo ▸ hcount)) h.queue
    (h.fifo ▸ hne)

/-- **One call** on a stuck port changes and returns nothing. -/
theorem stuck_step (hd : d.Ready) (m : DeviceMemory) {c : Call} (hc : c.IsReceive) {p : PortIndex}
    (h : (d.ports p).Stuck bytes) (hcount : bytes.count frameDelimiter < 2) (hne : bytes ≠ []) :
    ((Event.mk d m c).after.ports p).Stuck bytes ∧
      returned Call.takes p [⟨d, m, c⟩] = [] := by
  cases c with
  | pollPort portIndex =>
    refine ⟨?_, returned_other rfl p⟩
    show ((pollPort d portIndex).2.ports p).Stuck bytes
    rw [pollPort_port hd]
    split_ifs
    · have hflush : (flushTxQueueToModeledFifo (d.ports p)).2.Stuck bytes := by
        rw [flushTxQueueToModeledFifo_snd]
        exact ⟨h.fifo, h.room, h.queue⟩
      exact hflush.stagePending
    · exact h
  | pollHwPort deviceBase portIndex =>
    refine ⟨?_, returned_other rfl p⟩
    show ((pollHwPort d m deviceBase portIndex).2.ports p).Stuck bytes
    cases deviceBase with
    | none => rwa [pollHwPort_rejected hd]
    | some deviceBase =>
      obtain ⟨txQueue, m', hflush, -⟩ := flushTxQueueToHw_spec m deviceBase p (d.ports p)
      rw [pollHwPort_port hd, hflush]
      split_ifs
      · have hflushed : Port.Stuck { d.ports p with txQueue := txQueue } bytes :=
          ⟨h.fifo, h.room, h.queue⟩
        exact hflushed.stageHw m' deviceBase p
      · exact h
  | read portIndex data ptr =>
    rw [returned_read hd portIndex p m rfl]
    show ((Xr17v358.read d portIndex data ptr).2.ports p).Stuck bytes ∧ _
    rw [read_port hd, h.read hcount hne]
    split_ifs
    · exact ⟨h, rfl⟩
    · exact ⟨h, rfl⟩
  | readHw deviceBase portIndex data ptr =>
    show ((readHw d m deviceBase portIndex data ptr).2.ports p).Stuck bytes ∧ _
    cases deviceBase with
    | none =>
      rw [(readHw_rejected hd portIndex p m (.inl rfl)).2]
      exact ⟨h, returned_readHw_none hd portIndex p m rfl⟩
    | some deviceBase =>
      have hstage := h.stageHw m deviceBase p
      rw [returned_readHw hd portIndex p m rfl, readHw_port hd, hstage.read hcount hne]
      split_ifs
      · exact ⟨hstage, rfl⟩
      · exact ⟨h, rfl⟩
  | _ => exact hc.elim

theorem stuck_run (hd : d.Ready) {p : PortIndex} (h : (d.ports p).Stuck bytes)
    (hcount : bytes.count frameDelimiter < 2) (hne : bytes ≠ []) {es : List Event} {d' : Driver}
    (hrun : Run Call.IsReceive d es d') :
    (d'.ports p).Stuck bytes ∧ returned Call.takes p es = [] := by
  induction hrun with
  | nil => exact ⟨h, rfl⟩
  | @snoc es d' hprev m c hc ih =>
    obtain ⟨hstuck, hnothing⟩ := stuck_step (hprev.ready hd) m hc ih.1 hcount hne
    refine ⟨hstuck, ?_⟩
    rw [returned_snoc, ih.2, hnothing]
    rfl

/-! ## Wedged states -/

theorem Port.RxFull.room {p : PortIndex} (h : (d.ports p).RxFull) (hd : d.Ready) :
    (d.ports p).rxFifo.room = 0 := by
  unfold Port.RxFull at h
  rw [Ring.room, (hd.sized p).rxFifo, ← Ring.size_eq, h]
  exact Nat.sub_self ringBufferStorageCapacity

theorem Port.RxFull.ne_nil (h : port.RxFull) : port.rxFifo.contents ≠ [] := by
  intro hnil
  rw [Port.RxFull, Ring.size_eq, hnil] at h
  exact absurd h (by decide)

theorem Port.RxFull.ready {p : PortIndex} (h : (d.ports p).RxFull) (hd : Reachable d) :
    d.Ready := by
  rcases reachable_ready hd with rfl | hready
  · exact absurd rfl h.ne_nil
  · exact hready

theorem not_wedged_iff (hd : d.Ready) {p : PortIndex} (hfull : (d.ports p).RxFull) :
    ¬ Wedged d p ↔ (d.ports p).CanProgress := by
  constructor
  · intro hfree
    by_contra hstuck
    unfold Port.CanProgress at hstuck
    push Not at hstuck
    apply hfree
    intro es d' hrun
    obtain ⟨hport, hnothing⟩ :=
      stuck_run hd ⟨rfl, hfull.room hd, hstuck.2⟩ hstuck.1 hfull.ne_nil hrun
    refine ⟨?_, hport.fifo, hnothing⟩
    unfold Port.RxFull at hfull ⊢
    rw [Ring.size_eq, hport.fifo, ← Ring.size_eq, hfull]
  · intro hprogress hwedged
    have hvalid : ¬ (Ptr.valid = .null ∨ OutBuffer.missing ⟨.valid, 1⟩) := by
      simp [OutBuffer.missing]
    obtain ⟨-, hsame, hnothing⟩ :=
      hwedged _ _ (Run.nil.snoc default (.read p ⟨.valid, 1⟩ .valid) trivial)
    rcases (readProgresses_iff hd p hfull.ne_nil Nat.one_pos).2 hprogress with
      hdata | hsize
    · rw [List.nil_append, returned_read hd p p default rfl, if_pos ⟨rfl, hvalid⟩] at hnothing
      rw [read_reply hd p _ hvalid] at hdata
      exact hdata hnothing
    · change ((read d p ⟨.valid, 1⟩ .valid).2.ports p).rxFifo.contents = _ at hsame
      rw [Ring.size_eq, Ring.size_eq, hsame] at hsize
      exact lt_irrefl _ hsize

/-- **A full `rx_fifo` makes progress exactly when it holds two delimiters or decoded bytes
wait.** Then the next read delivers or consumes something, and otherwise the port is wedged. -/
theorem rxFull_progress_iff (hd : Reachable d) {p : PortIndex} (hfull : (d.ports p).RxFull)
    {length : Nat} (hlength : 0 < length) :
    (ReadProgresses d p length ↔ (d.ports p).CanProgress) ∧
      (¬ Wedged d p ↔ (d.ports p).CanProgress) := by
  have hready := hfull.ready hd
  exact ⟨readProgresses_iff hready p hfull.ne_nil hlength, not_wedged_iff hready hfull⟩

/-- Port 0 full of one byte value. -/
def filled (value : UInt8) : Driver := injected (List.replicate ringBufferStorageCapacity value)

theorem contents_filled (value : UInt8) : ((filled value).ports 0).rxFifo.contents =
    List.replicate ringBufferStorageCapacity value := by
  rw [filled, injected_port, contents_holding]
  exact List.take_of_length_le (List.length_replicate ..).le

theorem rxFull_filled (value : UInt8) : ((filled value).ports 0).RxFull := by
  rw [Port.RxFull, Ring.size_eq, contents_filled, List.length_replicate]

theorem rxFull_progress_iff_delimiters :
    ReadProgresses (filled frameDelimiter) 0 1 ∧ ¬ Wedged (filled frameDelimiter) 0 := by
  have hprogress : ((filled frameDelimiter).ports 0).CanProgress := by
    left
    rw [contents_filled, List.count_replicate_self]
    decide
  obtain ⟨hread, hfree⟩ := rxFull_progress_iff (reachable_injected _)
    (rxFull_filled frameDelimiter) Nat.one_pos
  exact ⟨hread.2 hprogress, hfree.2 hprogress⟩

/-- A buffer full of noise never moves again. -/
theorem wedged_noise : Reachable (filled 0) ∧ ((filled 0).ports 0).RxFull ∧
    (∀ length > 0, ¬ ReadProgresses (filled 0) 0 length) ∧ Wedged (filled 0) 0 := by
  have hready : (filled 0).Ready := ready_injected _
  have hstuck : ¬ ((filled 0).ports 0).CanProgress := by
    rintro (hcount | hqueue)
    · rw [contents_filled, List.count_replicate] at hcount
      exact absurd hcount (by decide)
    · exact hqueue rfl
  refine ⟨reachable_injected _, rxFull_filled 0, ?_, ?_⟩
  · intro length hlength hread
    exact hstuck ((readProgresses_iff hready 0 (rxFull_filled 0).ne_nil hlength).1 hread)
  · by_contra hfree
    exact hstuck ((not_wedged_iff hready (rxFull_filled 0)).1 hfree)

end Xr17v358
