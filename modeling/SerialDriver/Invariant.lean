import SerialDriver.Calls
import SerialDriver.ReceivePass

/-!
# The driver's invariant

Once the driver is initialised every ring has the capacity of its storage (`Ready`), whatever calls
are made (`reachable_ready`). A call on one port leaves the others as they are (`onPort_ports`).
-/

namespace Xr17v358

/-! ## One port -/

/-- Every ring of the port uses its whole storage. -/
structure Port.Sized (port : Port) : Prop where
  txFifo : port.txFifo.capacity = ringBufferStorageCapacity
  rxFifo : port.rxFifo.capacity = ringBufferStorageCapacity
  rxPending : port.rxPending.capacity = ringBufferStorageCapacity
  txQueue : port.txQueue.capacity = ringBufferStorageCapacity
  rxQueue : port.rxQueue.capacity = ringBufferStorageCapacity

namespace Port.Sized

variable {port : Port}

theorem reset (port : Port) : port.reset.Sized := ⟨rfl, rfl, rfl, rfl, rfl⟩

theorem scrub (h : port.Sized) : port.scrub.Sized :=
  ⟨h.txFifo, h.rxFifo, h.rxPending, h.txQueue, h.rxQueue⟩

theorem stageRxBytesFromPending (h : port.Sized) : (stageRxBytesFromPending port).2.Sized := by
  obtain ⟨-, hs, hd, -⟩ := transferRingBytes_spec port.rxPending port.rxFifo fifoCapacity
  rw [stageRxBytesFromPending_snd]
  exact ⟨h.txFifo, hd.trans h.rxFifo, hs.trans h.rxPending, h.txQueue, h.rxQueue⟩

theorem flushTxQueueToModeledFifo (h : port.Sized) :
    (flushTxQueueToModeledFifo port).2.Sized := by
  obtain ⟨-, hs, hd, -⟩ := transferRingBytes_spec port.txQueue port.txFifo fifoCapacity
  rw [flushTxQueueToModeledFifo_snd]
  exact ⟨hd.trans h.txFifo, h.rxFifo, h.rxPending, hs.trans h.txQueue, h.rxQueue⟩

theorem readFromStagedRx (h : port.Sized) (portIndex length : Nat) :
    (readFromStagedRx portIndex port length).2.Sized := by
  obtain ⟨_, _, rxFifo, rxQueue, -, hrun, hcap, hqcap, -⟩ :=
    readFromStagedRx_spec portIndex port length
  rw [hrun]
  exact ⟨h.txFifo, hcap.trans h.rxFifo, h.rxPending, h.txQueue, hqcap.trans h.rxQueue⟩

theorem stageRxBytesFromHw (h : port.Sized) (m : DeviceMemory) (deviceBase : Nat)
    (p : PortIndex) : (stageRxBytesFromHw m deviceBase p port).2.1.Sized := by
  obtain ⟨rxFifo, _, hrun, -, hcap, -⟩ := stageRxBytesFromHw_spec m deviceBase p port
  rw [hrun]
  exact ⟨h.txFifo, hcap.trans h.rxFifo, h.rxPending, h.txQueue, h.rxQueue⟩

theorem flushTxQueueToHw (h : port.Sized) (m : DeviceMemory) (deviceBase : Nat)
    (p : PortIndex) : (flushTxQueueToHw m deviceBase p port).2.1.Sized := by
  obtain ⟨txQueue, _, hrun, hcap, -⟩ := flushTxQueueToHw_spec m deviceBase p port
  rw [hrun]
  exact ⟨h.txFifo, h.rxFifo, h.rxPending, hcap.trans h.txQueue, h.rxQueue⟩

end Port.Sized

/-- A read queue without room is not empty. -/
theorem Port.Sized.queue_ne_nil {port : Port} (h : port.Sized) (hfull : port.rxQueue.room = 0) :
    port.rxQueue.contents ≠ [] := by
  intro hempty
  rw [Ring.room, hempty, h.rxQueue] at hfull
  exact absurd hfull (by decide)

theorem capacity_enqueuePacket (portIndex : Nat) (ring : Ring) (data : InBuffer) :
    (enqueuePacket portIndex ring data).2.2.capacity = ring.capacity := by
  rcases enqueuePacket_spec portIndex ring data with ⟨-, -, ring', hrun, hcap, -⟩ | ⟨-, hrun⟩
  · rw [hrun]
    exact hcap
  · rw [hrun]

theorem enqueuePacket_packet (portIndex : Nat) (ring : Ring) (data : InBuffer) :
    (enqueuePacket portIndex ring data).1 = .ok ∧
      (∀ x ∈ packetOf data.toList (some (enqueuePacket portIndex ring data).2.1),
        ValidPayload x) ∧
      (enqueuePacket portIndex ring data).2.2.contents = ring.contents ++
        (packetOf data.toList (some (enqueuePacket portIndex ring data).2.1)).flatMap encode := by
  rcases enqueuePacket_spec portIndex ring data with ⟨hvalid, -, ring', hrun, -, hcontents⟩ |
    ⟨hfull, hrun⟩
  · have hne : data.toList ≠ [] := List.ne_nil_of_length_pos hvalid.1
    rw [hrun, packetOf, if_pos ⟨hne, rfl⟩]
    exact ⟨rfl, by simpa using hvalid, by simpa using hcontents⟩
  · rw [hrun, packetOf_zero]
    exact ⟨rfl, by simp, by simp⟩

theorem capacity_queueReadLoop (portIndex length n : Nat) (txFifo : Ring) (out : List UInt8) :
    (queueReadLoop portIndex length n txFifo out).2.capacity = txFifo.capacity := by
  induction n generalizing txFifo out with
  | zero => rfl
  | succ n ih =>
    rw [queueReadLoop]
    dsimp only
    split_ifs
    · exact txFifo.capacity_readFrame
    · exact txFifo.capacity_readFrame
    · exact txFifo.capacity_readFrame
    · exact (ih ..).trans txFifo.capacity_readFrame
    · rfl
    · rfl

/-! ## The driver -/

structure Driver.Ready (d : Driver) : Prop where
  isInitialized : d.isInitialized = true
  sized : ∀ p, (d.ports p).Sized

theorem ready_resetState (d : Driver) : (resetState d).Ready := ⟨rfl, fun p => .reset (d.ports p)⟩

theorem ready_reset (d : Driver) : (reset d).Ready :=
  ⟨rfl, fun p => Port.Sized.scrub (.reset (d.ports p))⟩

theorem ensureStateInitialized_of_ready {d : Driver} (h : d.Ready) :
    ensureStateInitialized d = d :=
  if_pos h.isInitialized

theorem isInitialized_ensure (d : Driver) : (ensureStateInitialized d).isInitialized = true := by
  unfold ensureStateInitialized
  split_ifs with h
  · exact h
  · rfl

theorem ensureStateInitialized_idem (d : Driver) :
    ensureStateInitialized (ensureStateInitialized d) = ensureStateInitialized d :=
  if_pos (isInitialized_ensure d)

section OnPort

variable {α : Type} {d : Driver} {portIndex : Nat} {rejected : α}
  {body : PortIndex → Port → α × Port}

/-- The port named by the index gets the body's result, and the others keep what they have. -/
theorem onPort_ports (p : PortIndex) :
    (d.onPort portIndex rejected body).2.ports p =
      if portIndex = p then (body p ((ensureStateInitialized d).ports p)).2
      else (ensureStateInitialized d).ports p := by
  unfold Driver.onPort
  by_cases h : portIndex < getPortCount
  · simp only [dif_pos h, Driver.set]
    by_cases hp : portIndex = p
    · subst hp
      simp
    · have hne : p ≠ ⟨portIndex, h⟩ := fun he => hp (by rw [he])
      rw [if_neg hp, Function.update_of_ne hne]
  · have hp : portIndex ≠ p := fun he => h (by rw [he]; exact p.isLt)
    simp only [dif_neg h, if_neg hp]

theorem onPort_out (p : PortIndex) :
    (d.onPort p rejected body).1 = (body p ((ensureStateInitialized d).ports p)).1 := by
  simp [Driver.onPort]

/-- A call on a port of an initialised driver runs the body on that port. -/
theorem onPort_eq (h : d.isInitialized = true) (p : PortIndex) :
    d.onPort p rejected body = ((body p (d.ports p)).1, d.set p (body p (d.ports p)).2) := by
  have hensure : ensureStateInitialized d = d := if_pos h
  unfold Driver.onPort
  simp [hensure]

theorem Driver.set_self (d : Driver) (p : PortIndex) : d.set p (d.ports p) = d := by
  simp [Driver.set]

/-- A body that keeps its port keeps the driver. -/
theorem onPort_unchanged (h : d.Ready) {p : PortIndex} (hbody : (body p (d.ports p)).2 = d.ports p) :
    (d.onPort p rejected body).2 = d := by
  rw [onPort_eq h.isInitialized, hbody, Driver.set_self]

/-- A call initialises the state before it does anything else. -/
theorem onPort_ensure :
    d.onPort portIndex rejected body =
      (ensureStateInitialized d).onPort portIndex rejected body := by
  unfold Driver.onPort
  rw [ensureStateInitialized_idem]

theorem onPort_isInitialized : (d.onPort portIndex rejected body).2.isInitialized = true := by
  unfold Driver.onPort
  split_ifs
  · exact isInitialized_ensure d
  · exact isInitialized_ensure d

theorem onPort_ready (h : (ensureStateInitialized d).Ready)
    (hbody : ∀ p port, port.Sized → (body p port).2.Sized) :
    (d.onPort portIndex rejected body).2.Ready := by
  refine ⟨onPort_isInitialized, ?_⟩
  intro p
  rw [onPort_ports]
  split_ifs
  · exact hbody p _ (h.sized p)
  · exact h.sized p

end OnPort

/-! ## Every call -/

section Functions

variable {d : Driver} (h : (ensureStateInitialized d).Ready) (m : DeviceMemory) (portIndex : Nat)

include h

theorem initializePort_ready (config : Option PortConfig) :
    (initializePort d portIndex config).2.Ready := by
  apply onPort_ready h
  intro p port hs
  dsimp only
  split_ifs
  · exact hs
  · exact ⟨hs.txFifo, hs.rxFifo, hs.rxPending, hs.txQueue, hs.rxQueue⟩

theorem getPortConfig_ready (config : Ptr) : (getPortConfig d portIndex config).2.Ready := by
  apply onPort_ready h
  intro p port hs
  split_ifs <;> exact hs

theorem fifoLevel_ready : (fifoLevel d portIndex).2.Ready := onPort_ready h fun _ _ hs => hs

theorem queueSize_ready : (queueSize d portIndex).2.Ready := onPort_ready h fun _ _ hs => hs

theorem write_ready (data : InBuffer) (bytesWritten : Ptr) :
    (write d portIndex data bytesWritten).2.Ready := by
  apply onPort_ready h
  intro p port hs
  split_ifs
  · exact hs
  · exact ⟨hs.txFifo, hs.rxFifo, hs.rxPending,
      (capacity_enqueuePacket p port.txQueue data).trans hs.txQueue, hs.rxQueue⟩

theorem receive_ready (data : InBuffer) (bytesReceived : Ptr) :
    (receive d portIndex data bytesReceived).2.Ready := by
  apply onPort_ready h
  intro p port hs
  split_ifs
  · exact hs
  · exact ⟨hs.txFifo, hs.rxFifo, (capacity_enqueuePacket p port.rxPending data).trans hs.rxPending,
      hs.txQueue, hs.rxQueue⟩

theorem read_ready (data : OutBuffer) (bytesRead : Ptr) :
    (read d portIndex data bytesRead).2.Ready := by
  apply onPort_ready h
  intro p port hs
  split_ifs
  · exact hs
  · exact hs.readFromStagedRx p data.length

theorem pollPort_ready : (pollPort d portIndex).2.Ready := by
  apply onPort_ready h
  intro p port hs
  have hflush := hs.flushTxQueueToModeledFifo
  rcases hflushed : flushTxQueueToModeledFifo port with ⟨error, flushed⟩
  rw [hflushed] at hflush
  have hstage := hflush.stageRxBytesFromPending
  rcases hstaged : stageRxBytesFromPending flushed with ⟨error', staged⟩
  rw [hstaged] at hstage
  simp only [hstaged]
  split_ifs
  · exact hflush
  · exact hstage
  · exact hstage
  · exact hstage

theorem writeHw_ready (deviceBase : Option Nat) (data : InBuffer) (bytesWritten : Ptr) :
    (writeHw d m deviceBase portIndex data bytesWritten).2.Ready := by
  apply onPort_ready h
  intro p port hs
  cases deviceBase with
  | none => exact hs
  | some deviceBase =>
    dsimp only
    have henqueue : Port.Sized { port with txQueue := (enqueuePacket p port.txQueue data).2.2 } :=
      ⟨hs.txFifo, hs.rxFifo, hs.rxPending,
        (capacity_enqueuePacket p port.txQueue data).trans hs.txQueue, hs.rxQueue⟩
    split_ifs
    · exact hs
    · exact henqueue
    · exact henqueue.flushTxQueueToHw m deviceBase p
    · exact henqueue.flushTxQueueToHw m deviceBase p

theorem readHw_ready (deviceBase : Option Nat) (data : OutBuffer) (bytesRead : Ptr) :
    (readHw d m deviceBase portIndex data bytesRead).2.Ready := by
  apply onPort_ready h
  intro p port hs
  cases deviceBase with
  | none => exact hs
  | some deviceBase =>
    dsimp only
    have hstage := hs.stageRxBytesFromHw m deviceBase p
    split_ifs
    · exact hs
    · exact hstage
    · exact hstage.readFromStagedRx p data.length

theorem pollHwPort_ready (deviceBase : Option Nat) :
    (pollHwPort d m deviceBase portIndex).2.Ready := by
  apply onPort_ready h
  intro p port hs
  cases deviceBase with
  | none => exact hs
  | some deviceBase =>
    dsimp only
    have hflush := hs.flushTxQueueToHw m deviceBase p
    have hstage := hflush.stageRxBytesFromHw (flushTxQueueToHw m deviceBase p port).2.2
      deviceBase p
    split_ifs
    · exact hflush
    · exact hstage
    · exact hstage
    · exact hstage

theorem injectRxFrameBytes_ready (data : InBuffer) (bytesWritten : Ptr) :
    (injectRxFrameBytes d portIndex data bytesWritten).2.Ready := by
  apply onPort_ready h
  intro p port hs
  dsimp only
  split_ifs
  · exact hs
  · exact ⟨hs.txFifo, (Ring.capacity_writeBytes ..).trans hs.rxFifo, hs.rxPending, hs.txQueue,
      hs.rxQueue⟩

/-- `injectQueueFrameBytes` is the same function. -/
theorem injectTxFrameBytes_ready (data : InBuffer) (bytesWritten : Ptr) :
    (injectTxFrameBytes d portIndex data bytesWritten).2.Ready := by
  apply onPort_ready h
  intro p port hs
  dsimp only
  split_ifs
  · exact hs
  · exact ⟨(Ring.capacity_writeBytes ..).trans hs.txFifo, hs.rxFifo, hs.rxPending, hs.txQueue,
      hs.rxQueue⟩

theorem transferNextTxFrame_ready : (transferNextTxFrame d portIndex).2.Ready := by
  apply onPort_ready h
  intro p port hs
  obtain ⟨hscap, hdcap, -⟩ := Ring.transferFrame_spec port.txQueue port.txFifo
  dsimp only
  split_ifs
  · exact hs
  · exact ⟨hdcap.trans hs.txFifo, hs.rxFifo, hs.rxPending, hscap.trans hs.txQueue, hs.rxQueue⟩
  · exact hs

theorem queueRead_ready (data : OutBuffer) (bytesRead : Ptr) :
    (queueRead d portIndex data bytesRead).2.Ready := by
  apply onPort_ready h
  intro p port hs
  dsimp only
  split_ifs
  · exact hs
  · exact ⟨(capacity_queueReadLoop ..).trans hs.txFifo, hs.rxFifo, hs.rxPending, hs.txQueue,
      hs.rxQueue⟩

/-- A call that does not touch the state keeps it, and every other leaves a ready one. -/
theorem exec_ready (c : Call) : (c.exec d m).2.1 = d ∨ (c.exec d m).2.1.Ready := by
  cases c with
  | getUartBase | getTxFifoBase | writeTxFifo | readRxFifo | setDiscrete | setLoopback =>
    exact .inl rfl
  | resetState => exact .inr (ready_resetState d)
  | reset => exact .inr (ready_reset d)
  | initializePort portIndex config => exact .inr (initializePort_ready h portIndex config)
  | getPortConfig portIndex config => exact .inr (getPortConfig_ready h portIndex config)
  | fifoLevel portIndex => exact .inr (fifoLevel_ready h portIndex)
  | queueSize portIndex => exact .inr (queueSize_ready h portIndex)
  | write portIndex data ptr => exact .inr (write_ready h portIndex data ptr)
  | receive portIndex data ptr => exact .inr (receive_ready h portIndex data ptr)
  | read portIndex data ptr => exact .inr (read_ready h portIndex data ptr)
  | pollPort portIndex => exact .inr (pollPort_ready h portIndex)
  | writeHw deviceBase portIndex data ptr =>
    exact .inr (writeHw_ready h m portIndex deviceBase data ptr)
  | readHw deviceBase portIndex data ptr =>
    exact .inr (readHw_ready h m portIndex deviceBase data ptr)
  | pollHwPort deviceBase portIndex => exact .inr (pollHwPort_ready h m portIndex deviceBase)
  | injectRxFrameBytes portIndex data ptr =>
    exact .inr (injectRxFrameBytes_ready h portIndex data ptr)
  | injectTxFrameBytes portIndex data ptr =>
    exact .inr (injectTxFrameBytes_ready h portIndex data ptr)
  | injectQueueFrameBytes portIndex data ptr =>
    exact .inr (injectTxFrameBytes_ready h portIndex data ptr)
  | transferNextTxFrame portIndex => exact .inr (transferNextTxFrame_ready h portIndex)
  | queueRead portIndex data ptr => exact .inr (queueRead_ready h portIndex data ptr)

end Functions

theorem FreshlyReset.ready {d : Driver} (h : FreshlyReset d) : d.Ready := by
  obtain ⟨d₀, rfl | rfl⟩ := h
  · exact ready_resetState d₀
  · exact ready_reset d₀

/-- Both resets empty every ring. -/
theorem FreshlyReset.contents {d : Driver} (h : FreshlyReset d) (p : PortIndex) :
    (d.ports p).txFifo.contents = [] ∧ (d.ports p).rxFifo.contents = [] ∧
      (d.ports p).rxPending.contents = [] ∧ (d.ports p).txQueue.contents = [] ∧
      (d.ports p).rxQueue.contents = [] := by
  obtain ⟨d₀, rfl | rfl⟩ := h
  · exact ⟨rfl, rfl, rfl, rfl, rfl⟩
  · exact ⟨rfl, rfl, rfl, rfl, rfl⟩

/-- **Every reachable state is untouched or ready.** -/
theorem reachable_ready {d : Driver} (h : Reachable d) : d = .zero ∨ d.Ready := by
  obtain ⟨es, hrun⟩ := h
  induction hrun with
  | nil => exact .inl rfl
  | @snoc es d _ m c _ ih =>
    have hensure : (ensureStateInitialized d).Ready := by
      rcases ih with rfl | hready
      · exact ready_resetState _
      · rwa [ensureStateInitialized_of_ready hready]
    show (c.exec d m).2.1 = .zero ∨ (c.exec d m).2.1.Ready
    rcases exec_ready hensure m c with heq | hready
    · rw [heq]
      exact ih
    · exact .inr hready

theorem Reachable.ready {d : Driver} (h : Reachable d) (hinit : d.isInitialized = true) :
    d.Ready := by
  rcases reachable_ready h with rfl | hready
  · exact absurd hinit Bool.false_ne_true
  · exact hready

theorem ready_injected (bytes : List UInt8) : (injected bytes).Ready :=
  (reachable_injected bytes).ready onPort_isInitialized

theorem reachable_ensure_ready {d : Driver} (h : Reachable d) :
    (ensureStateInitialized d).Ready := by
  rcases reachable_ready h with rfl | hready
  · exact ready_resetState _
  · rwa [ensureStateInitialized_of_ready hready]

/-- A run from a ready state stays in ready states. -/
theorem Run.ready {permitted : Call → Prop} {start d : Driver} {es : List Event}
    (h : Run permitted start es d) (hstart : start.Ready) : d.Ready := by
  induction h with
  | nil => exact hstart
  | @snoc es d _ m c _ ih =>
    show (c.exec d m).2.1.Ready
    rcases exec_ready ((ensureStateInitialized_of_ready ih).symm ▸ ih) m c with heq | hready
    · rw [heq]
      exact ih
    · exact hready

end Xr17v358
