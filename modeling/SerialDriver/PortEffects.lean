import SerialDriver.Invariant

/-!
# What each call does to a port

For a ready driver, the state of a port after a call on any port index, and the reply of a call on
that port. A call on another index, a null pointer or a missing buffer leaves the port as it is.
-/

namespace Xr17v358

variable {d : Driver} (hd : d.Ready) (portIndex : Nat) (p : PortIndex)

include hd

/-! ## The modeled paths -/

theorem write_port (data : InBuffer) (ptr : Ptr) :
    (write d portIndex data ptr).2.ports p =
      if portIndex = p ∧ ¬ (ptr = .null ∨ data.missing) then
        { d.ports p with txQueue := (enqueuePacket p (d.ports p).txQueue data).2.2 }
      else d.ports p := by
  rw [write, onPort_ports, ensureStateInitialized_of_ready hd]
  split_ifs <;> simp_all

theorem write_reply (data : InBuffer) {ptr : Ptr} (hargs : ¬ (ptr = .null ∨ data.missing)) :
    (write d p data ptr).1 =
      { status := (enqueuePacket p (d.ports p).txQueue data).1,
        count := some (enqueuePacket p (d.ports p).txQueue data).2.1 } := by
  rw [write, onPort_out, ensureStateInitialized_of_ready hd, if_neg hargs]

theorem receive_port (data : InBuffer) (ptr : Ptr) :
    (receive d portIndex data ptr).2.ports p =
      if portIndex = p ∧ ¬ (ptr = .null ∨ data.missing) then
        { d.ports p with rxPending := (enqueuePacket p (d.ports p).rxPending data).2.2 }
      else d.ports p := by
  rw [receive, onPort_ports, ensureStateInitialized_of_ready hd]
  split_ifs <;> simp_all

theorem receive_reply (data : InBuffer) {ptr : Ptr} (hargs : ¬ (ptr = .null ∨ data.missing)) :
    (receive d p data ptr).1 =
      { status := (enqueuePacket p (d.ports p).rxPending data).1,
        count := some (enqueuePacket p (d.ports p).rxPending data).2.1 } := by
  rw [receive, onPort_out, ensureStateInitialized_of_ready hd, if_neg hargs]

theorem read_port (data : OutBuffer) (ptr : Ptr) :
    (read d portIndex data ptr).2.ports p =
      if portIndex = p ∧ ¬ (ptr = .null ∨ data.missing) then
        (readFromStagedRx p (d.ports p) data.length).2
      else d.ports p := by
  rw [read, onPort_ports, ensureStateInitialized_of_ready hd]
  split_ifs <;> simp_all

theorem read_reply (data : OutBuffer) {ptr : Ptr} (hargs : ¬ (ptr = .null ∨ data.missing)) :
    (read d p data ptr).1 = (readFromStagedRx p (d.ports p) data.length).1 := by
  rw [read, onPort_out, ensureStateInitialized_of_ready hd, if_neg hargs]

theorem pollPort_port :
    (pollPort d portIndex).2.ports p =
      if portIndex = p then
        (stageRxBytesFromPending (flushTxQueueToModeledFifo (d.ports p)).2).2
      else d.ports p := by
  have hflush := (transferRingBytes_spec (d.ports p).txQueue (d.ports p).txFifo fifoCapacity).1
  have hstage := (transferRingBytes_spec (d.ports p).rxPending (d.ports p).rxFifo fifoCapacity).1
  rw [pollPort, onPort_ports, ensureStateInitialized_of_ready hd]
  split_ifs
  · simp only [flushTxQueueToModeledFifo, stageRxBytesFromPending, hflush, hstage, ne_eq,
      not_true_eq_false, if_false]
    split_ifs <;> rfl
  · rfl

theorem pollPort_reply :
    (pollPort d p).1 =
      .code (if 2 ≤ ((pollPort d p).2.ports p).rxFifo.contents.count frameDelimiter then
        .messageReady else .messageNotReady) := by
  have hflush := (transferRingBytes_spec (d.ports p).txQueue (d.ports p).txFifo fifoCapacity).1
  have hstage := (transferRingBytes_spec (d.ports p).rxPending (d.ports p).rxFifo fifoCapacity).1
  rw [pollPort_port hd, if_pos rfl, pollPort, onPort_out, ensureStateInitialized_of_ready hd]
  simp only [flushTxQueueToModeledFifo, stageRxBytesFromPending, hflush, hstage, ne_eq,
    not_true_eq_false, if_false, Ring.hasCompleteFrame_eq, decide_eq_true_eq]
  split_ifs <;> rfl

theorem queueRead_port (data : OutBuffer) (ptr : Ptr) :
    (queueRead d portIndex data ptr).2.ports p =
      if portIndex = p ∧ ¬ (ptr = .null ∨ data.missing) then
        { d.ports p with
          txFifo := (queueReadLoop p data.length (d.ports p).txFifo.size (d.ports p).txFifo []).2 }
      else d.ports p := by
  rw [queueRead, onPort_ports, ensureStateInitialized_of_ready hd]
  split_ifs <;> simp_all

theorem queueRead_reply (data : OutBuffer) {ptr : Ptr} (hargs : ¬ (ptr = .null ∨ data.missing)) :
    (queueRead d p data ptr).1 =
      (queueReadLoop p data.length (d.ports p).txFifo.size (d.ports p).txFifo []).1 := by
  rw [queueRead, onPort_out, ensureStateInitialized_of_ready hd, if_neg hargs]

/-! ## The hardware paths -/

variable (m : DeviceMemory)

theorem writeHw_port (deviceBase : Nat) (data : InBuffer) (ptr : Ptr) :
    (writeHw d m (some deviceBase) portIndex data ptr).2.ports p =
      if portIndex = p ∧ ¬ (ptr = .null ∨ data.missing) then
        if (enqueuePacket p (d.ports p).txQueue data).2.1 = 0 then
          { d.ports p with txQueue := (enqueuePacket p (d.ports p).txQueue data).2.2 }
        else
          (flushTxQueueToHw m deviceBase p
            { d.ports p with txQueue := (enqueuePacket p (d.ports p).txQueue data).2.2 }).2.1
      else d.ports p := by
  have hok := enqueuePacket_ok p (d.ports p).txQueue data
  rw [writeHw, onPort_ports, ensureStateInitialized_of_ready hd]
  split_ifs <;> simp_all
  split_ifs <;> rfl

theorem writeHw_reply (deviceBase : Nat) (data : InBuffer) {ptr : Ptr}
    (hargs : ¬ (ptr = .null ∨ data.missing)) :
    (writeHw d m (some deviceBase) p data ptr).1 =
      (.counted (enqueuePacket p (d.ports p).txQueue data).2.1,
        if (enqueuePacket p (d.ports p).txQueue data).2.1 = 0 then m
        else
          (flushTxQueueToHw m deviceBase p
            { d.ports p with txQueue := (enqueuePacket p (d.ports p).txQueue data).2.2 }).2.2) := by
  have hok := enqueuePacket_ok p (d.ports p).txQueue data
  obtain ⟨txQueue, m', hflush, -⟩ := flushTxQueueToHw_spec m deviceBase p
    { d.ports p with txQueue := (enqueuePacket p (d.ports p).txQueue data).2.2 }
  rw [writeHw, onPort_out, ensureStateInitialized_of_ready hd]
  simp only [if_neg hargs, hok, hflush, ne_eq, not_true_eq_false, false_or, if_false]
  split_ifs with hzero
  · rw [hzero]
    rfl
  · rfl

theorem writeHw_rejected {deviceBase : Option Nat} {data : InBuffer} {ptr : Ptr}
    (h : deviceBase = none ∨ ptr = .null ∨ data.missing) :
    (writeHw d m deviceBase p data ptr).1.1 = .code .errorInvalidArgument ∧
      (writeHw d m deviceBase portIndex data ptr).2.ports p = d.ports p := by
  cases deviceBase with
  | none =>
    rw [writeHw, writeHw, onPort_out, onPort_ports, ensureStateInitialized_of_ready hd]
    exact ⟨rfl, ite_self _⟩
  | some deviceBase =>
    have hargs : ptr = .null ∨ data.missing := by simpa using h
    rw [writeHw_port hd, if_neg fun h => h.2 hargs, writeHw, onPort_out]
    simp only [if_pos hargs]
    exact ⟨trivial, trivial⟩

theorem readHw_port (deviceBase : Nat) (data : OutBuffer) (ptr : Ptr) :
    (readHw d m (some deviceBase) portIndex data ptr).2.ports p =
      if portIndex = p ∧ ¬ (ptr = .null ∨ data.missing) then
        (readFromStagedRx p (stageRxBytesFromHw m deviceBase p (d.ports p)).2.1 data.length).2
      else d.ports p := by
  obtain ⟨rxFifo, m', hstage, -⟩ := stageRxBytesFromHw_spec m deviceBase p (d.ports p)
  rw [readHw, onPort_ports, ensureStateInitialized_of_ready hd]
  split_ifs <;> simp_all

theorem readHw_reply (deviceBase : Nat) (data : OutBuffer) {ptr : Ptr}
    (hargs : ¬ (ptr = .null ∨ data.missing)) :
    (readHw d m (some deviceBase) p data ptr).1.1 =
      (readFromStagedRx p (stageRxBytesFromHw m deviceBase p (d.ports p)).2.1 data.length).1 := by
  obtain ⟨rxFifo, m', hstage, -⟩ := stageRxBytesFromHw_spec m deviceBase p (d.ports p)
  rw [readHw, onPort_out, ensureStateInitialized_of_ready hd]
  simp only [if_neg hargs, hstage, ne_eq, not_true_eq_false, if_false]

theorem pollHwPort_port (deviceBase : Nat) :
    (pollHwPort d m (some deviceBase) portIndex).2.ports p =
      if portIndex = p then
        (stageRxBytesFromHw (flushTxQueueToHw m deviceBase p (d.ports p)).2.2 deviceBase p
          (flushTxQueueToHw m deviceBase p (d.ports p)).2.1).2.1
      else d.ports p := by
  obtain ⟨txQueue, m₁, hflush, -⟩ := flushTxQueueToHw_spec m deviceBase p (d.ports p)
  obtain ⟨rxFifo, m₂, hstage, -⟩ := stageRxBytesFromHw_spec m₁ deviceBase p
    { d.ports p with txQueue := txQueue }
  rw [pollHwPort, onPort_ports, ensureStateInitialized_of_ready hd]
  split_ifs
  · simp only [hflush, hstage, ne_eq, not_true_eq_false, if_false]
    split_ifs <;> rfl
  · rfl

theorem pollHwPort_reply (deviceBase : Nat) :
    (pollHwPort d m (some deviceBase) p).1 =
      (.code (if 2 ≤ ((pollHwPort d m (some deviceBase) p).2.ports p).rxFifo.contents.count
          frameDelimiter then .messageReady else .messageNotReady),
        (stageRxBytesFromHw (flushTxQueueToHw m deviceBase p (d.ports p)).2.2 deviceBase p
          (flushTxQueueToHw m deviceBase p (d.ports p)).2.1).2.2) := by
  obtain ⟨txQueue, m₁, hflush, -⟩ := flushTxQueueToHw_spec m deviceBase p (d.ports p)
  obtain ⟨rxFifo, m₂, hstage, -⟩ := stageRxBytesFromHw_spec m₁ deviceBase p
    { d.ports p with txQueue := txQueue }
  rw [pollHwPort_port hd, if_pos rfl, pollHwPort, onPort_out, ensureStateInitialized_of_ready hd]
  simp only [hflush, hstage, ne_eq, not_true_eq_false, if_false, Ring.hasCompleteFrame_eq,
    decide_eq_true_eq]
  split_ifs <;> rfl

theorem readHw_rejected {deviceBase : Option Nat} {data : OutBuffer} {ptr : Ptr}
    (h : deviceBase = none ∨ ptr = .null ∨ data.missing) :
    (readHw d m deviceBase p data ptr).1.1 = .code .errorInvalidArgument ∧
      (readHw d m deviceBase portIndex data ptr).2.ports p = d.ports p := by
  cases deviceBase with
  | none =>
    rw [readHw, readHw, onPort_out, onPort_ports, ensureStateInitialized_of_ready hd]
    exact ⟨rfl, ite_self _⟩
  | some deviceBase =>
    have hargs : ptr = .null ∨ data.missing := by simpa using h
    rw [readHw_port hd, if_neg fun h => h.2 hargs, readHw, onPort_out]
    simp only [if_pos hargs]
    exact ⟨trivial, trivial⟩

theorem pollHwPort_rejected : (pollHwPort d m none portIndex).2.ports p = d.ports p := by
  rw [pollHwPort, onPort_ports, ensureStateInitialized_of_ready hd]
  exact ite_self _

/-! ## Bytes returned -/

/-- `reads` counts the call. -/
theorem returned_read {reads : Call → Option Nat} {data : OutBuffer} {ptr : Ptr}
    (hreads : reads (.read portIndex data ptr) = some portIndex) :
    returned reads p [⟨d, m, .read portIndex data ptr⟩] =
      if portIndex = p ∧ ¬ (ptr = .null ∨ data.missing) then
        (readFromStagedRx p (d.ports p) data.length).1.data
      else [] := by
  rw [returned_event hreads]
  show (if portIndex = p ∧ (read d portIndex data ptr).1.status = .ok then
    (read d portIndex data ptr).1.data else []) = _
  split_ifs with hok hargs hargs
  · obtain ⟨rfl, hargs⟩ := hargs
    rw [read_reply hd p data hargs]
  · obtain rfl : portIndex = p := hok.1
    have hnull : ptr = .null ∨ data.missing := by tauto
    rw [read, onPort_out, if_pos hnull]
    rfl
  · obtain ⟨rfl, hargs⟩ := hargs
    rw [read_reply hd p data hargs] at hok
    exact (readFromStagedRx_data p (d.ports p) data.length fun h => hok ⟨rfl, h⟩).symm
  · rfl

theorem returned_readHw {reads : Call → Option Nat} {deviceBase : Nat} {data : OutBuffer}
    {ptr : Ptr} (hreads : reads (.readHw (some deviceBase) portIndex data ptr) = some portIndex) :
    returned reads p [⟨d, m, .readHw (some deviceBase) portIndex data ptr⟩] =
      if portIndex = p ∧ ¬ (ptr = .null ∨ data.missing) then
        (readFromStagedRx p (stageRxBytesFromHw m deviceBase p (d.ports p)).2.1 data.length).1.data
      else [] := by
  rw [returned_event hreads]
  show (if portIndex = p ∧ (readHw d m (some deviceBase) portIndex data ptr).1.1.status = .ok then
    (readHw d m (some deviceBase) portIndex data ptr).1.1.data else []) = _
  split_ifs with hok hargs hargs
  · obtain ⟨rfl, hargs⟩ := hargs
    rw [readHw_reply hd p m deviceBase data hargs]
  · obtain rfl : portIndex = p := hok.1
    have hnull : ptr = .null ∨ data.missing := by tauto
    rw [(readHw_rejected hd p p m (.inr hnull)).1]
    rfl
  · obtain ⟨rfl, hargs⟩ := hargs
    rw [readHw_reply hd p m deviceBase data hargs] at hok
    exact (readFromStagedRx_data p _ data.length fun h => hok ⟨rfl, h⟩).symm
  · rfl

theorem returned_readHw_none {reads : Call → Option Nat} {data : OutBuffer} {ptr : Ptr}
    (hreads : reads (.readHw none portIndex data ptr) = some portIndex) :
    returned reads p [⟨d, m, .readHw none portIndex data ptr⟩] = [] := by
  rw [returned_event hreads]
  refine if_neg ?_
  rintro ⟨rfl, hok⟩
  change (readHw d m none p data ptr).1.1.status = .ok at hok
  rw [(readHw_rejected hd p p m (.inl rfl)).1] at hok
  exact absurd hok (by simp [Reply.code])

end Xr17v358
