import SerialDriver.Invariant

/-!
# States with the same contents

Two rings are the same when they hold the same bytes and have the same capacity: where the bytes lie
in the storage, and what the unused storage holds, makes no difference. Every operation returns the
same on rings that are the same, and leaves them the same.

* `Same.writeBytes` … `Same.transferFrame` — the operations of `ring_buffer.c`.
* `Port.RxSame`, `Port.TxSame` — the receive rings, and the transmit rings, of two ports are the same.
* `RxSame.readFromStagedRx`, … — the steps of `xr17v358.c`, each on the rings it works on.
* `onPort_related` — a function whose body keeps ports related keeps drivers related.
-/

namespace Xr17v358

/-! ## Rings -/

/-- The rings hold the same bytes and have the same capacity. -/
structure Ring.Same (r r' : Ring) : Prop where
  contents : r.contents = r'.contents
  capacity : r.capacity = r'.capacity

/-- Two results: the same output, and states that are related. -/
def SameResult {α σ : Type} (R : σ → σ → Prop) (x y : α × σ) : Prop := x.1 = y.1 ∧ R x.2 y.2

theorem SameResult.pair {α σ : Type} {R : σ → σ → Prop} {out : α} {s s' : σ} (h : R s s') :
    SameResult R (out, s) (out, s') := ⟨rfl, h⟩

namespace Ring.Same

variable {r r' s s' : Ring}

theorem room (h : r.Same r') : r.room = r'.room := by
  rw [Ring.room, Ring.room, h.contents, h.capacity]

theorem size (h : r.Same r') : r.size = r'.size := by
  rw [Ring.size_eq, Ring.size_eq, h.contents]

theorem writeBytes (h : r.Same r') (data : List UInt8) :
    SameResult Ring.Same (r.writeBytes data) (r'.writeBytes data) := by
  refine ⟨?_, ?_, ?_⟩
  · rw [Ring.writeBytes_fst, Ring.writeBytes_fst, h.room]
  · rw [Ring.contents_writeBytes, Ring.contents_writeBytes, h.contents, h.room]
  · rw [Ring.capacity_writeBytes, Ring.capacity_writeBytes, h.capacity]

theorem readBytes (h : r.Same r') (length : Nat) :
    SameResult Ring.Same (r.readBytes length) (r'.readBytes length) := by
  refine ⟨?_, ?_, ?_⟩
  · rw [Ring.readBytes_fst, Ring.readBytes_fst, h.contents]
  · rw [Ring.contents_readBytes, Ring.contents_readBytes, h.contents]
  · rw [Ring.capacity_readBytes, Ring.capacity_readBytes, h.capacity]

theorem readFrame (h : r.Same r') : SameResult Ring.Same r.readFrame r'.readFrame := by
  refine ⟨?_, ?_, ?_⟩
  · rw [Ring.readFrame_fst, Ring.readFrame_fst, h.contents]
  · rw [Ring.contents_readFrame, Ring.contents_readFrame, h.contents]
  · rw [Ring.capacity_readFrame, Ring.capacity_readFrame, h.capacity]

theorem frameCount (h : r.Same r') : r.frameCount = r'.frameCount := by
  rw [Ring.frameCount_eq, Ring.frameCount_eq, h.contents]

theorem hasCompleteFrame (h : r.Same r') : r.hasCompleteFrame = r'.hasCompleteFrame := by
  rw [Ring.hasCompleteFrame_eq, Ring.hasCompleteFrame_eq, h.contents]

theorem canAcceptFrame (h : r.Same r') (maxFrameCount : Nat) :
    r.canAcceptFrame maxFrameCount = r'.canAcceptFrame maxFrameCount := by
  rw [Ring.canAcceptFrame_eq, Ring.canAcceptFrame_eq, h.contents, h.capacity]

theorem transferFrame (h : r.Same r') (hs : s.Same s') :
    (Ring.transferFrame r s).1 = (Ring.transferFrame r' s').1 ∧
      (Ring.transferFrame r s).2.1.Same (Ring.transferFrame r' s').2.1 ∧
      (Ring.transferFrame r s).2.2.Same (Ring.transferFrame r' s').2.2 := by
  obtain ⟨hcap, hdcap, hcontents, hout⟩ := Ring.transferFrame_spec r s
  obtain ⟨hcap', hdcap', hcontents', hout'⟩ := Ring.transferFrame_spec r' s'
  rw [h.contents] at hcontents hout
  rw [hs.contents, hs.room, ← hout'] at hout
  obtain ⟨hstatus, hdcontents⟩ := Prod.ext_iff.1 hout
  exact ⟨hstatus, ⟨hcontents.trans hcontents'.symm, hcap.trans (h.capacity.trans hcap'.symm)⟩,
    ⟨hdcontents, hdcap.trans (hs.capacity.trans hdcap'.symm)⟩⟩

theorem transferRingBytes (h : r.Same r') (hs : s.Same s') (maxBytes : Nat) :
    (Xr17v358.transferRingBytes r s maxBytes).1 = (Xr17v358.transferRingBytes r' s' maxBytes).1 ∧
      (Xr17v358.transferRingBytes r s maxBytes).2.1.Same
        (Xr17v358.transferRingBytes r' s' maxBytes).2.1 ∧
      (Xr17v358.transferRingBytes r s maxBytes).2.2.Same
        (Xr17v358.transferRingBytes r' s' maxBytes).2.2 := by
  have hcount : transferCount r s maxBytes = transferCount r' s' maxBytes := by
    rw [transferCount, transferCount, h.contents, hs.room]
  rw [transferRingBytes_eq, transferRingBytes_eq, hcount, h.contents]
  exact ⟨rfl, (h.readBytes _).2, (hs.writeBytes _).2⟩

theorem enqueuePacket (h : r.Same r') (portIndex : Nat) (data : InBuffer) :
    (Xr17v358.enqueuePacket portIndex r data).1 = (Xr17v358.enqueuePacket portIndex r' data).1 ∧
      (Xr17v358.enqueuePacket portIndex r data).2.1 =
        (Xr17v358.enqueuePacket portIndex r' data).2.1 ∧
      (Xr17v358.enqueuePacket portIndex r data).2.2.Same
        (Xr17v358.enqueuePacket portIndex r' data).2.2 := by
  rw [enqueuePacket_eq, enqueuePacket_eq, h.room]
  split_ifs
  · exact ⟨rfl, rfl, (h.writeBytes _).2⟩
  · exact ⟨rfl, rfl, h⟩

theorem queueReadLoop (h : r.Same r') (portIndex length n : Nat) (out : List UInt8) :
    SameResult Ring.Same (Xr17v358.queueReadLoop portIndex length n r out)
      (Xr17v358.queueReadLoop portIndex length n r' out) := by
  induction n generalizing r r' out with
  | zero => exact ⟨rfl, h⟩
  | succ n ih =>
    obtain ⟨hreply, hrest⟩ := h.readFrame
    rw [Xr17v358.queueReadLoop, Xr17v358.queueReadLoop]
    simp only [h.size, h.hasCompleteFrame, hreply]
    split_ifs
    · exact ⟨rfl, hrest⟩
    · exact ⟨rfl, hrest⟩
    · exact ⟨rfl, hrest⟩
    · exact ih hrest _
    · exact ⟨rfl, h⟩
    · exact ⟨rfl, h⟩

end Ring.Same

/-! ## Ports -/

/-- The ports' receive rings are the same. -/
structure Port.RxSame (port port' : Port) : Prop where
  rxFifo : port.rxFifo.Same port'.rxFifo
  rxPending : port.rxPending.Same port'.rxPending
  rxQueue : port.rxQueue.Same port'.rxQueue

/-- The ports' transmit rings are the same. -/
structure Port.TxSame (port port' : Port) : Prop where
  txFifo : port.txFifo.Same port'.txFifo
  txQueue : port.txQueue.Same port'.txQueue

variable {port port' : Port}

theorem Port.TxSame.flush (h : port.TxSame port') :
    SameResult Port.TxSame (flushTxQueueToModeledFifo port) (flushTxQueueToModeledFifo port') := by
  obtain ⟨hstatus, hqueue, hfifo⟩ := h.txQueue.transferRingBytes h.txFifo fifoCapacity
  exact ⟨hstatus, hfifo, hqueue⟩

namespace Port.RxSame

theorem stage (h : port.RxSame port') :
    SameResult Port.RxSame (stageRxBytesFromPending port) (stageRxBytesFromPending port') := by
  obtain ⟨hstatus, hpending, hfifo⟩ := h.rxPending.transferRingBytes h.rxFifo fifoCapacity
  exact ⟨hstatus, hfifo, hpending, h.rxQueue⟩

theorem decodeLoop (h : port.RxSame port') (portIndex n : Nat) :
    SameResult Port.RxSame (decodeRxFifoIntoReadQueueLoop portIndex n port)
      (decodeRxFifoIntoReadQueueLoop portIndex n port') := by
  induction n generalizing port port' with
  | zero => exact ⟨rfl, h⟩
  | succ n ih =>
    obtain ⟨hreply, hrest⟩ := h.rxFifo.readFrame
    have hwrite := h.rxQueue.writeBytes (decode portIndex port'.rxFifo.readFrame.1.frame).data
    rw [decodeRxFifoIntoReadQueueLoop, decodeRxFifoIntoReadQueueLoop]
    simp only [h.rxFifo.hasCompleteFrame, h.rxQueue.size, h.rxQueue.capacity, hreply, hwrite.1]
    split_ifs
    · exact ⟨rfl, hrest, h.rxPending, h.rxQueue⟩
    · exact ⟨rfl, hrest, h.rxPending, h.rxQueue⟩
    · exact ⟨rfl, hrest, h.rxPending, hwrite.2⟩
    · exact ih ⟨hrest, h.rxPending, hwrite.2⟩
    · exact ⟨rfl, h⟩

theorem readFromStagedRx (h : port.RxSame port') (portIndex length : Nat) :
    SameResult Port.RxSame (readFromStagedRx portIndex port length)
      (readFromStagedRx portIndex port' length) := by
  have hpass : SameResult Port.RxSame (decodeRxFifoIntoReadQueue portIndex port)
      (decodeRxFifoIntoReadQueue portIndex port') := by
    rw [decodeRxFifoIntoReadQueue, decodeRxFifoIntoReadQueue, h.rxFifo.size]
    exact h.decodeLoop portIndex _
  obtain ⟨hstatus, hsame⟩ := hpass
  obtain ⟨hdata, hqueue⟩ := hsame.rxQueue.readBytes length
  unfold Xr17v358.readFromStagedRx
  simp only [hstatus, hsame.rxQueue.size, hsame.rxFifo.size, hdata]
  split_ifs
  · exact ⟨rfl, hsame⟩
  · exact ⟨rfl, hsame⟩
  · exact ⟨rfl, hsame.rxFifo, hsame.rxPending, hqueue⟩

end Port.RxSame

/-! ## Drivers -/

/-- The ports are related as the next call finds them, which initialises first. -/
def Driver.Related (d : Driver) (R : Port → Port → Prop) (d' : Driver) : Prop :=
  ∀ p, R ((ensureStateInitialized d).ports p) ((ensureStateInitialized d').ports p)

section OnPort

variable {α : Type} {R : Port → Port → Prop} {d d' : Driver} {portIndex : Nat} {rejected : α}
  {body : PortIndex → Port → α × Port}

theorem ensureStateInitialized_onPort :
    ensureStateInitialized (d.onPort portIndex rejected body).2 =
      (d.onPort portIndex rejected body).2 :=
  if_pos onPort_isInitialized

/-- A body that returns the same on related ports makes a call that does on related drivers. -/
theorem onPort_related (h : d.Related R d')
    (hbody : ∀ p port port', R port port' → SameResult R (body p port) (body p port')) :
    SameResult (Driver.Related · R ·) (d.onPort portIndex rejected body)
      (d'.onPort portIndex rejected body) := by
  constructor
  · unfold Driver.onPort
    split_ifs with hindex
    · exact (hbody _ _ _ (h ⟨portIndex, hindex⟩)).1
    · rfl
  · intro p
    rw [ensureStateInitialized_onPort, ensureStateInitialized_onPort, onPort_ports, onPort_ports]
    split_ifs
    · exact (hbody _ _ _ (h p)).2
    · exact h p

/-- A call whose body keeps its port related to others keeps the driver related to others. -/
theorem onPort_keeps_related (h : d.Related R d')
    (hbody : ∀ p port port', R port port' → R (body p port).2 port') :
    (d.onPort portIndex rejected body).2.Related R d' := by
  intro p
  rw [ensureStateInitialized_onPort, onPort_ports]
  split_ifs
  · exact hbody _ _ _ (h p)
  · exact h p

end OnPort

end Xr17v358
