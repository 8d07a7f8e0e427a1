import SerialDriver.Sameness

/-!
# Every reset is a fresh start

Neither reset needs to clear the storage: a driver after a reset cannot be told from
zero-initialised memory by any sequence of calls (`fresh_start`). Each function of the interface
returns the same on drivers whose ports are the same, and leaves them the same (`exec_same`). Every
function that looks at a ring initialises first, so a driver is compared as
`ensureStateInitialized` leaves it.
-/

namespace Xr17v358

/-! ## Ports -/

/-- The ports hold the same bytes and the same configuration. -/
structure Port.Same (port port' : Port) : Prop where
  rx : port.RxSame port'
  tx : port.TxSame port'
  config : port.config = port'.config

/-- A read keeps the transmit rings and the configuration. -/
theorem readFromStagedRx_keeps (portIndex : Nat) (port : Port) (length : Nat) :
    (readFromStagedRx portIndex port length).2.txFifo = port.txFifo ∧
      (readFromStagedRx portIndex port length).2.txQueue = port.txQueue ∧
      (readFromStagedRx portIndex port length).2.config = port.config := by
  obtain ⟨_, _, rxFifo, rxQueue, -, hrun, -⟩ := readFromStagedRx_spec portIndex port length
  rw [hrun]
  exact ⟨rfl, rfl, rfl⟩

namespace Port.Same

variable {port port' : Port} (h : port.Same port')

include h

theorem readFromStagedRx (portIndex length : Nat) :
    SameResult Port.Same (readFromStagedRx portIndex port length)
      (readFromStagedRx portIndex port' length) := by
  obtain ⟨hreply, hrx⟩ := h.rx.readFromStagedRx portIndex length
  obtain ⟨hfifo, hqueue, hconfig⟩ := readFromStagedRx_keeps portIndex port length
  obtain ⟨hfifo', hqueue', hconfig'⟩ := readFromStagedRx_keeps portIndex port' length
  refine ⟨hreply, hrx, ⟨?_, ?_⟩, ?_⟩
  · rw [hfifo, hfifo']
    exact h.tx.txFifo
  · rw [hqueue, hqueue']
    exact h.tx.txQueue
  · rw [hconfig, hconfig', h.config]

theorem stage :
    SameResult Port.Same (stageRxBytesFromPending port) (stageRxBytesFromPending port') := by
  obtain ⟨hstatus, hrx⟩ := h.rx.stage
  exact ⟨hstatus, hrx, ⟨h.tx.txFifo, h.tx.txQueue⟩, h.config⟩

theorem flush :
    SameResult Port.Same (flushTxQueueToModeledFifo port) (flushTxQueueToModeledFifo port') := by
  obtain ⟨hstatus, htx⟩ := h.tx.flush
  exact ⟨hstatus, ⟨h.rx.rxFifo, h.rx.rxPending, h.rx.rxQueue⟩, htx, h.config⟩

variable (m : DeviceMemory) (deviceBase : Nat) (p : PortIndex)

theorem stageHw :
    (stageRxBytesFromHw m deviceBase p port).1 = (stageRxBytesFromHw m deviceBase p port').1 ∧
      (stageRxBytesFromHw m deviceBase p port).2.1.Same
        (stageRxBytesFromHw m deviceBase p port').2.1 ∧
      (stageRxBytesFromHw m deviceBase p port).2.2 =
        (stageRxBytesFromHw m deviceBase p port').2.2 := by
  have hcount : stageCount m deviceBase p port = stageCount m deviceBase p port' := by
    rw [stageCount, stageCount, h.rx.rxFifo.room]
  have hmemory : stageMemory m deviceBase p port = stageMemory m deviceBase p port' := by
    rw [stageMemory, stageMemory, hcount, h.rx.rxFifo.room]
  rw [stageRxBytesFromHw_eq, stageRxBytesFromHw_eq, hcount, hmemory]
  exact ⟨rfl, ⟨⟨(h.rx.rxFifo.writeBytes _).2, h.rx.rxPending, h.rx.rxQueue⟩,
    ⟨h.tx.txFifo, h.tx.txQueue⟩, h.config⟩, rfl⟩

theorem flushHw :
    (flushTxQueueToHw m deviceBase p port).1 = (flushTxQueueToHw m deviceBase p port').1 ∧
      (flushTxQueueToHw m deviceBase p port).2.1.Same
        (flushTxQueueToHw m deviceBase p port').2.1 ∧
      (flushTxQueueToHw m deviceBase p port).2.2 = (flushTxQueueToHw m deviceBase p port').2.2 := by
  have hcount : flushCount m deviceBase p port = flushCount m deviceBase p port' := by
    rw [flushCount, flushCount, h.tx.txQueue.contents]
  rw [flushTxQueueToHw_eq, flushTxQueueToHw_eq, hcount, h.tx.txQueue.contents]
  exact ⟨rfl, ⟨⟨h.rx.rxFifo, h.rx.rxPending, h.rx.rxQueue⟩,
    ⟨h.tx.txFifo, (h.tx.txQueue.readBytes _).2⟩, h.config⟩, rfl⟩

end Port.Same

/-! ## Drivers -/

/-- The next call finds the same ports. -/
def Driver.Same (d d' : Driver) : Prop := d.Related Port.Same d'

variable {d d' : Driver}

section Functions

variable (h : d.Same d') (m : DeviceMemory) (portIndex : Nat)

include h

theorem initializePort_same (config : Option PortConfig) :
    SameResult Driver.Same (initializePort d portIndex config)
      (initializePort d' portIndex config) := by
  apply onPort_related h
  intro p port port' hs
  cases config with
  | none => exact ⟨rfl, hs⟩
  | some config =>
    dsimp only
    split_ifs
    · exact ⟨rfl, hs⟩
    · exact ⟨rfl, ⟨hs.rx.rxFifo, hs.rx.rxPending, hs.rx.rxQueue⟩, ⟨hs.tx.txFifo, hs.tx.txQueue⟩, rfl⟩

theorem getPortConfig_same (config : Ptr) :
    SameResult Driver.Same (getPortConfig d portIndex config)
      (getPortConfig d' portIndex config) := by
  apply onPort_related h
  intro p port port' hs
  rw [hs.config]
  split_ifs
  · exact ⟨rfl, hs⟩
  · exact ⟨rfl, hs⟩

theorem fifoLevel_same :
    SameResult Driver.Same (fifoLevel d portIndex) (fifoLevel d' portIndex) :=
  onPort_related h fun _ _ _ hs => ⟨hs.rx.rxFifo.frameCount, hs⟩

theorem queueSize_same :
    SameResult Driver.Same (queueSize d portIndex) (queueSize d' portIndex) :=
  onPort_related h fun _ _ _ hs => ⟨hs.tx.txFifo.frameCount, hs⟩

theorem write_same (data : InBuffer) (ptr : Ptr) :
    SameResult Driver.Same (write d portIndex data ptr) (write d' portIndex data ptr) := by
  apply onPort_related h
  intro p port port' hs
  obtain ⟨hstatus, hcount, hqueue⟩ := hs.tx.txQueue.enqueuePacket p data
  simp only [hstatus, hcount]
  split_ifs
  · exact ⟨rfl, hs⟩
  · exact ⟨rfl, ⟨hs.rx.rxFifo, hs.rx.rxPending, hs.rx.rxQueue⟩, ⟨hs.tx.txFifo, hqueue⟩, hs.config⟩

theorem receive_same (data : InBuffer) (ptr : Ptr) :
    SameResult Driver.Same (receive d portIndex data ptr) (receive d' portIndex data ptr) := by
  apply onPort_related h
  intro p port port' hs
  obtain ⟨hstatus, hcount, hpending⟩ := hs.rx.rxPending.enqueuePacket p data
  simp only [hstatus, hcount]
  split_ifs
  · exact ⟨rfl, hs⟩
  · exact ⟨rfl, ⟨hs.rx.rxFifo, hpending, hs.rx.rxQueue⟩, ⟨hs.tx.txFifo, hs.tx.txQueue⟩, hs.config⟩

theorem read_same (data : OutBuffer) (ptr : Ptr) :
    SameResult Driver.Same (read d portIndex data ptr) (read d' portIndex data ptr) := by
  apply onPort_related h
  intro p port port' hs
  split_ifs
  · exact ⟨rfl, hs⟩
  · exact hs.readFromStagedRx p data.length

theorem pollPort_same :
    SameResult Driver.Same (pollPort d portIndex) (pollPort d' portIndex) := by
  apply onPort_related h
  intro p port port' hs
  obtain ⟨hflushed, hs₁⟩ := hs.flush
  obtain ⟨hstaged, hs₂⟩ := hs₁.stage
  simp only [hflushed, hstaged, hs₂.rx.rxFifo.hasCompleteFrame]
  split_ifs
  · exact .pair hs₁
  · exact .pair hs₂
  · exact .pair hs₂
  · exact .pair hs₂

theorem writeHw_same (deviceBase : Option Nat) (data : InBuffer) (ptr : Ptr) :
    SameResult Driver.Same (writeHw d m deviceBase portIndex data ptr)
      (writeHw d' m deviceBase portIndex data ptr) := by
  apply onPort_related h
  intro p port port' hs
  cases deviceBase with
  | none => exact ⟨rfl, hs⟩
  | some deviceBase =>
    obtain ⟨hstatus, hcount, hqueue⟩ := hs.tx.txQueue.enqueuePacket p data
    have hs₁ : Port.Same { port with txQueue := (enqueuePacket p port.txQueue data).2.2 }
        { port' with txQueue := (enqueuePacket p port'.txQueue data).2.2 } :=
      ⟨⟨hs.rx.rxFifo, hs.rx.rxPending, hs.rx.rxQueue⟩, ⟨hs.tx.txFifo, hqueue⟩, hs.config⟩
    obtain ⟨hflushed, hs₂, hmemory⟩ := hs₁.flushHw m deviceBase p
    simp only [hstatus, hcount, hflushed, hmemory]
    split_ifs
    · exact ⟨rfl, hs⟩
    · exact ⟨rfl, hs₁⟩
    · exact ⟨rfl, hs₂⟩
    · exact ⟨rfl, hs₂⟩

theorem readHw_same (deviceBase : Option Nat) (data : OutBuffer) (ptr : Ptr) :
    SameResult Driver.Same (readHw d m deviceBase portIndex data ptr)
      (readHw d' m deviceBase portIndex data ptr) := by
  apply onPort_related h
  intro p port port' hs
  cases deviceBase with
  | none => exact ⟨rfl, hs⟩
  | some deviceBase =>
    obtain ⟨hstaged, hs₁, hmemory⟩ := hs.stageHw m deviceBase p
    obtain ⟨hreply, hs₂⟩ := hs₁.readFromStagedRx p data.length
    simp only [hstaged, hmemory, hreply]
    split_ifs
    · exact ⟨rfl, hs⟩
    · exact ⟨rfl, hs₁⟩
    · exact ⟨rfl, hs₂⟩

theorem pollHwPort_same (deviceBase : Option Nat) :
    SameResult Driver.Same (pollHwPort d m deviceBase portIndex)
      (pollHwPort d' m deviceBase portIndex) := by
  apply onPort_related h
  intro p port port' hs
  cases deviceBase with
  | none => exact ⟨rfl, hs⟩
  | some deviceBase =>
    obtain ⟨hflushed, hs₁, hmemory₁⟩ := hs.flushHw m deviceBase p
    obtain ⟨hstaged, hs₂, hmemory₂⟩ :=
      hs₁.stageHw (flushTxQueueToHw m deviceBase p port').2.2 deviceBase p
    simp only [hflushed, hmemory₁, hstaged, hmemory₂, hs₂.rx.rxFifo.hasCompleteFrame]
    split_ifs
    · exact ⟨rfl, hs₁⟩
    · exact ⟨rfl, hs₂⟩
    · exact ⟨rfl, hs₂⟩
    · exact ⟨rfl, hs₂⟩

theorem injectRxFrameBytes_same (data : InBuffer) (ptr : Ptr) :
    SameResult Driver.Same (injectRxFrameBytes d portIndex data ptr)
      (injectRxFrameBytes d' portIndex data ptr) := by
  apply onPort_related h
  intro p port port' hs
  obtain ⟨hcount, hfifo⟩ := hs.rx.rxFifo.writeBytes data.toList
  simp only [hcount]
  split_ifs
  · exact ⟨rfl, hs⟩
  · exact ⟨rfl, ⟨hfifo, hs.rx.rxPending, hs.rx.rxQueue⟩, ⟨hs.tx.txFifo, hs.tx.txQueue⟩, hs.config⟩

/-- `injectQueueFrameBytes` is the same function. -/
theorem injectTxFrameBytes_same (data : InBuffer) (ptr : Ptr) :
    SameResult Driver.Same (injectTxFrameBytes d portIndex data ptr)
      (injectTxFrameBytes d' portIndex data ptr) := by
  apply onPort_related h
  intro p port port' hs
  obtain ⟨hcount, hfifo⟩ := hs.tx.txFifo.writeBytes data.toList
  simp only [hcount]
  split_ifs
  · exact ⟨rfl, hs⟩
  · exact ⟨rfl, ⟨hs.rx.rxFifo, hs.rx.rxPending, hs.rx.rxQueue⟩, ⟨hfifo, hs.tx.txQueue⟩, hs.config⟩

theorem transferNextTxFrame_same :
    SameResult Driver.Same (transferNextTxFrame d portIndex)
      (transferNextTxFrame d' portIndex) := by
  apply onPort_related h
  intro p port port' hs
  obtain ⟨hstatus, hqueue, hfifo⟩ := hs.tx.txQueue.transferFrame hs.tx.txFifo
  simp only [hs.tx.txQueue.frameCount, hs.tx.txFifo.canAcceptFrame, hstatus]
  split_ifs
  · exact ⟨rfl, hs⟩
  · exact ⟨rfl, ⟨hs.rx.rxFifo, hs.rx.rxPending, hs.rx.rxQueue⟩, ⟨hfifo, hqueue⟩, hs.config⟩
  · exact ⟨rfl, hs⟩

theorem queueRead_same (data : OutBuffer) (ptr : Ptr) :
    SameResult Driver.Same (queueRead d portIndex data ptr) (queueRead d' portIndex data ptr) := by
  apply onPort_related h
  intro p port port' hs
  obtain ⟨hreply, hfifo⟩ := hs.tx.txFifo.queueReadLoop p data.length port'.txFifo.size []
  simp only [hs.tx.txFifo.size, hreply]
  split_ifs
  · exact ⟨rfl, hs⟩
  · exact ⟨rfl, ⟨hs.rx.rxFifo, hs.rx.rxPending, hs.rx.rxQueue⟩, ⟨hfifo, hs.tx.txQueue⟩, hs.config⟩

end Functions

/-- Resets leave the same ports, whatever was there before and whether or not they clear it. -/
theorem FreshlyReset.same (h : FreshlyReset d) (h' : FreshlyReset d') : d.Same d' := by
  intro p
  obtain ⟨d₀, rfl | rfl⟩ := h <;> obtain ⟨d₀', rfl | rfl⟩ := h' <;>
    exact ⟨⟨⟨rfl, rfl⟩, ⟨rfl, rfl⟩, ⟨rfl, rfl⟩⟩, ⟨⟨rfl, rfl⟩, ⟨rfl, rfl⟩⟩, rfl⟩

/-- **No call can tell drivers whose ports are the same.** -/
theorem exec_same (h : d.Same d') (m : DeviceMemory) (c : Call) :
    (c.exec d m).1 = (c.exec d' m).1 ∧ (c.exec d m).2.1.Same (c.exec d' m).2.1 ∧
      (c.exec d m).2.2 = (c.exec d' m).2.2 := by
  -- Every call that goes through the driver is one of three kinds.
  have modeled : ∀ {x y : Reply × Driver}, SameResult Driver.Same x y →
      x.1 = y.1 ∧ x.2.Same y.2 ∧ m = m := fun hsame => ⟨hsame.1, hsame.2, rfl⟩
  have hardware : ∀ {x y : (Reply × DeviceMemory) × Driver}, SameResult Driver.Same x y →
      x.1.1 = y.1.1 ∧ x.2.Same y.2 ∧ x.1.2 = y.1.2 :=
    fun hsame => ⟨congrArg Prod.fst hsame.1, hsame.2, congrArg Prod.snd hsame.1⟩
  have counter : ∀ {x y : Nat × Driver}, SameResult Driver.Same x y →
      Reply.counted x.1 = .counted y.1 ∧ x.2.Same y.2 ∧ m = m :=
    fun hsame => ⟨congrArg Reply.counted hsame.1, hsame.2, rfl⟩
  cases c with
  | getUartBase | getTxFifoBase | writeTxFifo | readRxFifo | setDiscrete | setLoopback =>
    exact ⟨rfl, h, rfl⟩
  | resetState => exact ⟨rfl, FreshlyReset.same ⟨d, .inl rfl⟩ ⟨d', .inl rfl⟩, rfl⟩
  | reset => exact ⟨rfl, FreshlyReset.same ⟨d, .inr rfl⟩ ⟨d', .inr rfl⟩, rfl⟩
  | initializePort portIndex config => exact modeled (initializePort_same h portIndex config)
  | getPortConfig portIndex ptr => exact modeled (getPortConfig_same h portIndex ptr)
  | fifoLevel portIndex => exact counter (fifoLevel_same h portIndex)
  | queueSize portIndex => exact counter (queueSize_same h portIndex)
  | write portIndex data ptr => exact modeled (write_same h portIndex data ptr)
  | receive portIndex data ptr => exact modeled (receive_same h portIndex data ptr)
  | read portIndex data ptr => exact modeled (read_same h portIndex data ptr)
  | pollPort portIndex => exact modeled (pollPort_same h portIndex)
  | writeHw deviceBase portIndex data ptr =>
    exact hardware (writeHw_same h m portIndex deviceBase data ptr)
  | readHw deviceBase portIndex data ptr =>
    exact hardware (readHw_same h m portIndex deviceBase data ptr)
  | pollHwPort deviceBase portIndex => exact hardware (pollHwPort_same h m portIndex deviceBase)
  | injectRxFrameBytes portIndex data ptr =>
    exact modeled (injectRxFrameBytes_same h portIndex data ptr)
  | injectTxFrameBytes portIndex data ptr | injectQueueFrameBytes portIndex data ptr =>
    exact modeled (injectTxFrameBytes_same h portIndex data ptr)
  | transferNextTxFrame portIndex => exact modeled (transferNextTxFrame_same h portIndex)
  | queueRead portIndex data ptr => exact modeled (queueRead_same h portIndex data ptr)

/-! ## Sequences of calls -/

/-- What calls made one after another hand back, and the device memory each leaves. Before each
call the device changes its memory as it likes. -/
def Driver.outputs (d : Driver) (m : DeviceMemory) :
    List ((DeviceMemory → DeviceMemory) × Call) → List (Reply × DeviceMemory)
  | [] => []
  | (device, c) :: k =>
    let (reply, d, m) := c.exec d (device m)
    (reply, m) :: outputs d m k

theorem outputs_same (h : d.Same d') (m : DeviceMemory)
    (k : List ((DeviceMemory → DeviceMemory) × Call)) : d.outputs m k = d'.outputs m k := by
  induction k generalizing d d' m with
  | nil => rfl
  | cons call k ih =>
    obtain ⟨hreply, hafter, hmemory⟩ := exec_same h (call.1 m) call.2
    simp only [Driver.outputs]
    rw [hreply, hmemory, ih hafter]

/-- **Every reset is a fresh start.** Whatever calls led to the state `d`, all the calls that follow
a reset of it return the same as on zero-initialised memory that no call has touched, and leave the
same device memory, if they find the same device. This holds of the reset that clears the storage
and of the one that leaves every byte in it. -/
theorem fresh_start (d : Driver) (m : DeviceMemory)
    (k : List ((DeviceMemory → DeviceMemory) × Call)) :
    (resetState d).outputs m k = Driver.zero.outputs m k ∧
      (reset d).outputs m k = Driver.zero.outputs m k := by
  -- The first call initialises zero-initialised memory by a reset.
  have hzero : Driver.zero.Same (resetState .zero) := by
    show (resetState Driver.zero).Same (resetState .zero)
    exact FreshlyReset.same ⟨.zero, .inl rfl⟩ ⟨.zero, .inl rfl⟩
  have hfresh : ∀ {d' : Driver}, FreshlyReset d' → d'.outputs m k = Driver.zero.outputs m k :=
    fun h => (outputs_same (h.same ⟨.zero, .inl rfl⟩) m k).trans (outputs_same hzero m k).symm
  exact ⟨hfresh ⟨d, .inl rfl⟩, hfresh ⟨d, .inr rfl⟩⟩

end Xr17v358
