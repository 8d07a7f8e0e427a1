import SerialDriver.QueueMachine

/-!
# The driver refines its queues

`Driver.queues` forgets where a ring keeps its bytes, and reads a driver that is not initialised as
one just reset. Each function of the driver, seen through it, is the function of the same name on
queues, whatever state the driver is in (`exec_queues`); so every run of calls gets the answers that
the queues give (`driver_refines_queues`).
-/

namespace Xr17v358

/-! ## Rings -/

/-- The queue a ring stands for. -/
def Ring.queue (r : Ring) : Queue := r.1.abs r.2

namespace Ring

@[simp] theorem items_queue (r : Ring) : r.queue.items = r.contents := rfl

@[simp] theorem capacity_queue (r : Ring) : r.queue.capacity = r.capacity := rfl

@[simp] theorem room_queue (r : Ring) : r.queue.room = r.room := rfl

theorem queue_eq {r : Ring} {q : Queue} (hcapacity : r.capacity = q.capacity)
    (hcontents : r.contents = q.items) : r.queue = q :=
  BoundedFifo.ext hcapacity hcontents

@[simp] theorem queue_reset (r : Ring) {capacity : Nat}
    (h : capacity ≤ ringBufferStorageCapacity) : (r.reset capacity h).queue = .empty capacity := rfl

@[simp] theorem queue_writeBytes (r : Ring) (data : List UInt8) :
    (r.writeBytes data).2.queue = (r.queue.push data).2 :=
  queue_eq (r.capacity_writeBytes data) (r.contents_writeBytes data)

@[simp] theorem queue_readBytes (r : Ring) (n : Nat) :
    (r.readBytes n).2.queue = (r.queue.pop n).2 :=
  queue_eq (r.capacity_readBytes n) (r.contents_readBytes n)

/-- A count clamped to what is there takes the same. -/
theorem queue_readBytes_min (r : Ring) (n : Nat) :
    (r.readBytes (min r.contents.length n)).2.queue = (r.queue.pop n).2 := by
  refine queue_eq (r.capacity_readBytes _) ?_
  rw [contents_readBytes, Nat.min_comm, ← List.drop_eq_drop_min]
  rfl

end Ring

theorem transferRingBytes_queues (source destination : Ring) (maxBytes : Nat) :
    (transferRingBytes source destination maxBytes).1 = .ok ∧
      ((transferRingBytes source destination maxBytes).2.1.queue,
          (transferRingBytes source destination maxBytes).2.2.queue) =
        source.queue.move destination.queue maxBytes := by
  rw [transferRingBytes_eq]
  refine ⟨rfl, Prod.ext ?_ ?_⟩
  · exact source.queue_readBytes_min _
  · show (destination.writeBytes (source.contents.take _)).2.queue = _
    rw [Ring.queue_writeBytes, transferCount, Nat.min_comm, ← List.take_eq_take_min]
    rfl

theorem enqueuePacket_queue (portIndex : Nat) (ring : Ring) (data : InBuffer) :
    (enqueuePacket portIndex ring data).1 = .ok ∧
      ((enqueuePacket portIndex ring data).2.1, (enqueuePacket portIndex ring data).2.2.queue) =
        addPacket ring.queue data.toList := by
  rw [enqueuePacket_eq, addPacket, Ring.room_queue]
  split_ifs
  · exact ⟨rfl, congrArg (Prod.mk _) (ring.queue_writeBytes _)⟩
  · exact ⟨rfl, rfl⟩

theorem nextFrame_queue {r r' : Ring} {item : Option (List UInt8)}
    (hstep : receiver.step r.contents = some (item, r'.contents))
    (hcapacity : r'.capacity = r.capacity) : nextFrame r.queue = some (item, r'.queue) :=
  nextFrame_eq_some_iff.2 ⟨hstep, hcapacity⟩

theorem nextFrame_queue_none {r : Ring} (h : r.contents.count frameDelimiter < 2) :
    nextFrame r.queue = none :=
  nextFrame_eq_none_iff.2 (step_eq_none_iff.2 h)

/-! ## The loops -/

/-- The decoding loop, given turns for every byte, decodes what `decodeFrames` does. -/
theorem decodeLoop_queues (portIndex : Nat) {n : Nat} {port : Port}
    (hn : port.rxFifo.contents.length ≤ n) :
    ∃ e rxFifo rxQueue, decodeRxFifoIntoReadQueueLoop portIndex n port =
        (e, { port with rxFifo := rxFifo, rxQueue := rxQueue }) ∧
      decodeFrames port.rxFifo.queue port.rxQueue.queue = (e, rxFifo.queue, rxQueue.queue) := by
  induction n generalizing port with
  | zero =>
    have hnil : port.rxFifo.contents = [] := List.eq_nil_of_length_eq_zero (by omega)
    refine ⟨.ok, port.rxFifo, port.rxQueue, rfl, ?_⟩
    rw [decodeFrames_eq, nextFrame_queue_none (by simp [hnil])]
    exact ite_self _
  | succ n ih =>
    by_cases hguard : 2 ≤ port.rxFifo.contents.count frameDelimiter ∧ 0 < port.rxQueue.room
    · obtain ⟨hcount, hroom⟩ := hguard
      rw [decodeFrames_eq, Ring.room_queue, if_neg hroom.ne']
      obtain ⟨rxFifo, hcap, ⟨hstep, hrun⟩ | ⟨d, rxQueue, hstep, hqcap, hqueue, hrun⟩⟩ :=
        decodeLoop_turn portIndex n hcount hroom
      · rw [nextFrame_queue hstep hcap]
        exact ⟨_, _, _, hrun, rfl⟩
      · have hpush : (port.rxQueue.queue.push d).2 = rxQueue.queue :=
          (Ring.queue_eq hqcap hqueue).symm
        rw [nextFrame_queue hstep hcap]
        dsimp only
        rw [hpush]
        by_cases hshort : port.rxQueue.room < d.length
        · rw [if_pos hshort] at hrun ⊢
          exact ⟨_, _, _, hrun, rfl⟩
        · rw [if_neg hshort] at hrun ⊢
          have hlength := receiver.step_length hstep
          rw [hrun]
          exact @ih { port with rxFifo := rxFifo, rxQueue := rxQueue } (by dsimp only; omega)
    · refine ⟨.ok, port.rxFifo, port.rxQueue, ?_, ?_⟩
      · rw [decodeRxFifoIntoReadQueueLoop, if_neg]
        rw [Ring.hasCompleteFrame_eq, decide_eq_true_iff, Ring.size_eq]
        unfold Ring.room at hguard
        omega
      · rw [decodeFrames_eq, Ring.room_queue]
        split_ifs with hfull
        · rfl
        · rw [nextFrame_queue_none (by omega)]

theorem queueReadLoop_queue (portIndex length : Nat) {n : Nat} {txFifo : Ring}
    (hn : txFifo.contents.length ≤ n) (out : List UInt8) :
    Prod.map id Ring.queue (queueReadLoop portIndex length n txFifo out) =
      takePackets length txFifo.queue out := by
  induction n generalizing txFifo out with
  | zero =>
    have hnil : txFifo.contents = [] := List.eq_nil_of_length_eq_zero (by omega)
    rw [takePackets_eq, nextFrame_queue_none (by simp [hnil])]
    exact (ite_self _).symm
  | succ n ih =>
    rw [queueReadLoop, takePackets_eq]
    by_cases hmore : out.length < length
    · by_cases hcount : 2 ≤ txFifo.contents.count frameDelimiter
      · have hsize : 0 < txFifo.size := by
          have hle := txFifo.contents.count_le_length (a := frameDelimiter)
          rw [Ring.size_eq]
          omega
        have hcomplete : ¬ ¬ txFifo.hasCompleteFrame = true := not_not_intro (by simpa using hcount)
        rw [if_pos ⟨hmore, hsize⟩, if_neg hcomplete, if_pos hmore]
        rcases txFifo.readFrame_step portIndex hcount with
          ⟨hstep, hread | ⟨hread, hdecode⟩⟩ | ⟨d, hstep, hread, hdecode⟩
        · rw [nextFrame_queue hstep txFifo.capacity_readFrame]
          simp only [hread, ne_eq, reduceCtorEq, not_false_eq_true, if_true]
          rfl
        · rw [nextFrame_queue hstep txFifo.capacity_readFrame]
          simp only [hread, hdecode, ne_eq, reduceCtorEq, not_true_eq_false, not_false_eq_true,
            if_false, if_true]
          rfl
        · have hshorter := receiver.step_length hstep
          rw [nextFrame_queue hstep txFifo.capacity_readFrame]
          simp only [hread, hdecode, ne_eq, not_true_eq_false, if_false]
          split_ifs
          · rfl
          · exact ih (by omega) _
      · have hcomplete : ¬ txFifo.hasCompleteFrame = true := by simpa using hcount
        rw [nextFrame_queue_none (by omega), if_pos hcomplete, ite_self, if_pos hmore]
        rfl
    · rw [if_neg fun h => hmore h.1, if_neg hmore]
      rfl

/-! ## Moving a frame -/

theorem length_readFrameFrom_frame_le {frameCapacity : Nat} (hpos : 0 < frameCapacity)
    (s : List UInt8) {frame : List UInt8} (h : frame.length ≤ frameCapacity) :
    (readFrameFrom frameCapacity s frame).1.frame.length ≤ frameCapacity := by
  induction s generalizing frame with
  | nil => exact h
  | cons byte s ih =>
    rw [readFrameFrom]
    split_ifs with hempty hbyte hfull hdelim
    · exact ih h
    · exact ih (by simp only [List.length_append, List.length_singleton]; omega)
    · exact h
    · simp only [List.length_append, List.length_singleton]
      omega
    · exact ih (by simp only [List.length_append, List.length_singleton]; omega)

/-- A destination with room for the longest frame takes whatever frame is read. -/
theorem transferFrame_queues (source destination : Ring)
    (hroom : maxEncodedByteCount ≤ destination.room) :
    ((Ring.transferFrame source destination).1, (Ring.transferFrame source destination).2.1.queue,
        (Ring.transferFrame source destination).2.2.queue) =
      let reply := (readFrame maxEncodedByteCount source.contents).1
      let source' := source.queue.shrink (readFrame maxEncodedByteCount source.contents).2
        (length_readFrame_le ..)
      if reply.status ≠ .ok then (reply.status, source', destination.queue)
      else (.ok, source', (destination.queue.push reply.frame).2) := by
  obtain ⟨hscap, hdcap, hsource, hout⟩ := Ring.transferFrame_spec source destination
  have hfit : (readFrame maxEncodedByteCount source.contents).1.frame.length ≤ destination.room :=
    (length_readFrameFrom_frame_le (by decide) source.contents (Nat.zero_le _)).trans hroom
  rw [transferOutcome] at hout
  dsimp only
  split_ifs at hout ⊢
  all_goals
    obtain ⟨hstatus, hdestination⟩ := Prod.mk.inj hout
    exact Prod.ext hstatus (Prod.ext (Ring.queue_eq hscap hsource)
      (Ring.queue_eq hdcap hdestination))

theorem transferNext_queues (source destination : Ring) :
    transferNext source.queue destination.queue =
      if source.frameCount = 0 then (.errorInvalidFrame, source.queue, destination.queue)
      else if ¬ destination.canAcceptFrame fifoCapacity then
        (.errorInvalidFrame, source.queue, destination.queue)
      else
        ((Ring.transferFrame source destination).1, (Ring.transferFrame source destination).2.1.queue,
          (Ring.transferFrame source destination).2.2.queue) := by
  rw [transferNext, Ring.frameCount_eq]
  by_cases hframes : frameCount source.contents = 0
  · rw [if_pos hframes]
    exact if_pos hframes
  · rw [if_neg hframes]
    refine (if_neg hframes).trans ?_
    by_cases haccepts : destination.canAcceptFrame fifoCapacity = true
    · have hfree : frameCount destination.contents < fifoCapacity ∧
          destination.contents.length + maxEncodedByteCount ≤ destination.capacity := by
        simpa using haccepts
      have hroom : maxEncodedByteCount ≤ destination.room := by
        unfold Ring.room
        omega
      rw [if_neg (not_not_intro haccepts), transferFrame_queues source destination hroom]
      exact if_pos hfree
    · rw [if_pos haccepts]
      refine if_neg fun hfree => haccepts ?_
      simpa using hfree

/-! ## Ports -/

/-- The queues a port stands for. -/
def Port.queues (port : Port) : PortQueues where
  txFifo := port.txFifo.queue
  rxFifo := port.rxFifo.queue
  rxPending := port.rxPending.queue
  txQueue := port.txQueue.queue
  rxQueue := port.rxQueue.queue
  config := port.config

/-- A result seen through the queues. -/
def seen {α : Type} (out : α × Port) : α × PortQueues := (out.1, out.2.queues)

theorem readFromStagedRx_queues (portIndex : Nat) (port : Port) (length : Nat) :
    seen (readFromStagedRx portIndex port length) = port.queues.read length := by
  obtain ⟨e, rxFifo, rxQueue, hrun, hdecode⟩ : ∃ e rxFifo rxQueue,
      decodeRxFifoIntoReadQueue portIndex port =
        (e, { port with rxFifo := rxFifo, rxQueue := rxQueue }) ∧
      decodeFrames port.queues.rxFifo port.queues.rxQueue = (e, rxFifo.queue, rxQueue.queue) :=
    decodeLoop_queues portIndex port.rxFifo.size_eq.ge
  unfold readFromStagedRx PortQueues.read
  simp only [hrun, hdecode, Ring.size_eq, List.length_eq_zero_iff, List.length_pos_iff]
  by_cases he : e ≠ .ok
  · rw [if_pos he, if_pos he]
    rfl
  · rw [if_neg he, if_neg he]
    by_cases hempty : rxQueue.contents = [] ∧ rxFifo.contents ≠ []
    · rw [if_pos hempty]
      exact (if_pos hempty).symm
    · rw [if_neg hempty, seen, Port.queues, Ring.readBytes_fst, Ring.queue_readBytes]
      exact (if_neg hempty).symm

theorem poll_queues (port : Port) :
    (flushTxQueueToModeledFifo port).1 = .ok ∧
      (stageRxBytesFromPending (flushTxQueueToModeledFifo port).2).1 = .ok ∧
      (stageRxBytesFromPending (flushTxQueueToModeledFifo port).2).2.queues = port.queues.poll := by
  obtain ⟨hflushed, hflush⟩ := transferRingBytes_queues port.txQueue port.txFifo fifoCapacity
  obtain ⟨hstaged, hstage⟩ := transferRingBytes_queues port.rxPending port.rxFifo fifoCapacity
  change _ = port.queues.txQueue.move port.queues.txFifo fifoCapacity at hflush
  change _ = port.queues.rxPending.move port.queues.rxFifo fifoCapacity at hstage
  refine ⟨hflushed, hstaged, ?_⟩
  rw [PortQueues.poll, ← hflush, ← hstage]
  rfl

theorem readiness_queues (port : Port) :
    port.queues.readiness =
      .code (if port.rxFifo.hasCompleteFrame then .messageReady else .messageNotReady) := by
  simp only [Ring.hasCompleteFrame_eq, decide_eq_true_iff]
  rfl

theorem flushTxQueueToHw_queues (m : DeviceMemory) (deviceBase : Nat) (p : PortIndex)
    (port : Port) :
    (flushTxQueueToHw m deviceBase p port).1 = .ok ∧
      ((flushTxQueueToHw m deviceBase p port).2.1.queues,
        (flushTxQueueToHw m deviceBase p port).2.2) = port.queues.flushHw m deviceBase p := by
  rw [flushTxQueueToHw_eq]
  refine ⟨rfl, Prod.ext ?_ ?_⟩
  · exact congrArg (fun txQueue => { port.queues with txQueue := txQueue })
      (port.txQueue.queue_readBytes_min _)
  · show DeviceMemory.store _ _ (port.txQueue.contents.take (flushCount m deviceBase p port)) = _
    rw [flushCount, Nat.min_comm, ← List.take_eq_take_min]
    rfl

theorem stageRxBytesFromHw_queues (m : DeviceMemory) (deviceBase : Nat) (p : PortIndex)
    (port : Port) :
    (stageRxBytesFromHw m deviceBase p port).1 = .ok ∧
      ((stageRxBytesFromHw m deviceBase p port).2.1.queues,
        (stageRxBytesFromHw m deviceBase p port).2.2) = port.queues.stageHw m deviceBase p := by
  rw [stageRxBytesFromHw_eq]
  refine ⟨rfl, ?_⟩
  by_cases hzero : min port.rxFifo.room (peekLevel m deviceBase p regRxlvl) = 0
  · obtain ⟨hnone, hnothing⟩ := stageCount_eq_zero hzero
    rw [hnone, hnothing, stageMemory, if_pos hzero]
    exact (if_pos hzero).symm
  · have hbytes : (((m.read8 (registerAddress deviceBase p regRxlvl)).2.read8
        (registerAddress deviceBase p regRxlvl)).2.load (fifoAddress deviceBase p)
          (stageCount m deviceBase p port)).1 =
        peekWindow m deviceBase p (stageCount m deviceBase p port) := by
      rw [DeviceMemory.load_fst]
      exact (peekWindow_read8 (by decide) _).trans (peekWindow_read8 (by decide) _)
    rw [stageMemory, if_neg hzero, ← hbytes]
    show _ = if min port.rxFifo.room (peekLevel m deviceBase p regRxlvl) = 0 then _ else _
    rw [if_neg hzero]
    refine Prod.ext ?_ rfl
    exact congrArg (fun rxFifo => { port.queues with rxFifo := rxFifo })
      (port.rxFifo.queue_writeBytes _)

/-! ## Drivers -/

/-- The queues a driver stands for, which are those its next call finds. -/
def Driver.queues (d : Driver) : DriverQueues := fun p => ((ensureStateInitialized d).ports p).queues

theorem queues_zero : Driver.zero.queues = fun _ => .fresh := rfl

/-- A result seen through the queues. -/
def Driver.seen {α : Type} (out : α × Driver) : α × DriverQueues := (out.1, out.2.queues)

/-- A body that is a function on queues makes a call that is. -/
theorem onPort_queues {α : Type} {d : Driver} {portIndex : Nat} {rejected : α}
    {body : PortIndex → Port → α × Port} {body' : PortIndex → PortQueues → α × PortQueues}
    (h : ∀ p port, Xr17v358.seen (body p port) = body' p port.queues) :
    Driver.seen (d.onPort portIndex rejected body) = d.queues.onPort portIndex rejected body' := by
  refine Prod.ext ?_ (funext fun p => ?_)
  · show (d.onPort portIndex rejected body).1 = _
    unfold Driver.onPort DriverQueues.onPort
    split_ifs
    · exact congrArg Prod.fst (h _ _)
    · rfl
  · show ((ensureStateInitialized (d.onPort portIndex rejected body).2).ports p).queues = _
    rw [ensureStateInitialized_onPort, onPort_ports, DriverQueues.onPort_snd]
    split_ifs
    · exact congrArg Prod.snd (h _ _)
    · rfl

section Functions

variable (d : Driver) (m : DeviceMemory) (portIndex : Nat)

theorem initializePort_queues (config : Option PortConfig) :
    Driver.seen (initializePort d portIndex config) = d.queues.initializePort portIndex config := by
  apply onPort_queues
  intro p port
  cases config with
  | none => rfl
  | some config =>
    dsimp only
    by_cases hvalid : validatePortConfig (some config) = .ok
    · rw [if_neg (not_not_intro hvalid), if_pos hvalid]
      rfl
    · rw [if_pos hvalid, if_neg hvalid, validatePortConfig_rejected hvalid]
      rfl

theorem getPortConfig_queues (config : Ptr) :
    Driver.seen (getPortConfig d portIndex config) = d.queues.getPortConfig portIndex config := by
  apply onPort_queues
  intro p port
  split_ifs
  · rfl
  · rfl

theorem fifoLevel_queues : Driver.seen (fifoLevel d portIndex) = d.queues.fifoLevel portIndex := by
  apply onPort_queues
  intro p port
  rw [Ring.frameCount_eq]
  rfl

theorem queueSize_queues : Driver.seen (queueSize d portIndex) = d.queues.queueSize portIndex := by
  apply onPort_queues
  intro p port
  rw [Ring.frameCount_eq]
  rfl

theorem write_queues (data : InBuffer) (ptr : Ptr) :
    Driver.seen (write d portIndex data ptr) = d.queues.write portIndex data ptr := by
  apply onPort_queues
  intro p port
  obtain ⟨hstatus, hadd⟩ := enqueuePacket_queue p port.txQueue data
  change _ = addPacket port.queues.txQueue data.toList at hadd
  rw [DriverQueues.adding, ← hadd]
  dsimp only
  rw [hstatus]
  split_ifs
  · rfl
  · rfl

theorem receive_queues (data : InBuffer) (ptr : Ptr) :
    Driver.seen (receive d portIndex data ptr) = d.queues.receive portIndex data ptr := by
  apply onPort_queues
  intro p port
  obtain ⟨hstatus, hadd⟩ := enqueuePacket_queue p port.rxPending data
  change _ = addPacket port.queues.rxPending data.toList at hadd
  rw [DriverQueues.adding, ← hadd]
  dsimp only
  rw [hstatus]
  split_ifs
  · rfl
  · rfl

theorem injectRxFrameBytes_queues (data : InBuffer) (ptr : Ptr) :
    Driver.seen (injectRxFrameBytes d portIndex data ptr) =
      d.queues.injectRx portIndex data ptr := by
  apply onPort_queues
  intro p port
  rw [DriverQueues.adding]
  dsimp only
  split_ifs
  · rfl
  · exact Prod.ext (congrArg Reply.counted (port.rxFifo.writeBytes_fst _))
      (congrArg (fun rxFifo => { port.queues with rxFifo := rxFifo })
        (port.rxFifo.queue_writeBytes _))

theorem injectTxFrameBytes_queues (data : InBuffer) (ptr : Ptr) :
    Driver.seen (injectTxFrameBytes d portIndex data ptr) =
      d.queues.injectTx portIndex data ptr := by
  apply onPort_queues
  intro p port
  rw [DriverQueues.adding]
  dsimp only
  split_ifs
  · rfl
  · exact Prod.ext (congrArg Reply.counted (port.txFifo.writeBytes_fst _))
      (congrArg (fun txFifo => { port.queues with txFifo := txFifo })
        (port.txFifo.queue_writeBytes _))

theorem read_queues (data : OutBuffer) (ptr : Ptr) :
    Driver.seen (read d portIndex data ptr) = d.queues.read portIndex data ptr := by
  apply onPort_queues
  intro p port
  split_ifs
  · rfl
  · exact readFromStagedRx_queues p port data.length

theorem pollPort_queues : Driver.seen (pollPort d portIndex) = d.queues.pollPort portIndex := by
  apply onPort_queues
  intro p port
  obtain ⟨hflushed, hstaged, hpoll⟩ := poll_queues port
  rw [← hpoll, readiness_queues]
  simp only [hflushed, hstaged, ne_eq, not_true_eq_false, if_false]
  split_ifs
  · rfl
  · rfl

theorem transferNextTxFrame_queues :
    Driver.seen (transferNextTxFrame d portIndex) = d.queues.transferNextTxFrame portIndex := by
  apply onPort_queues
  intro p port
  have hnext := transferNext_queues port.txQueue port.txFifo
  change transferNext port.queues.txQueue port.queues.txFifo = _ at hnext
  rw [hnext]
  split_ifs
  · rfl
  · rfl
  · rfl

theorem queueRead_queues (data : OutBuffer) (ptr : Ptr) :
    Driver.seen (queueRead d portIndex data ptr) = d.queues.queueRead portIndex data ptr := by
  apply onPort_queues
  intro p port
  have hloop := queueReadLoop_queue p data.length port.txFifo.size_eq.ge []
  change _ = takePackets data.length port.queues.txFifo [] at hloop
  rw [← hloop]
  split_ifs
  · rfl
  · rfl

theorem writeHw_queues (deviceBase : Option Nat) (data : InBuffer) (ptr : Ptr) :
    Driver.seen (writeHw d m deviceBase portIndex data ptr) =
      d.queues.writeHw m deviceBase portIndex data ptr := by
  apply onPort_queues
  intro p port
  cases deviceBase with
  | none => rfl
  | some deviceBase =>
    obtain ⟨hstatus, hadd⟩ := enqueuePacket_queue p port.txQueue data
    change _ = addPacket port.queues.txQueue data.toList at hadd
    obtain ⟨hflushed, hflush⟩ := flushTxQueueToHw_queues m deviceBase p
      { port with txQueue := (enqueuePacket p port.txQueue data).2.2 }
    change _ = PortQueues.flushHw m deviceBase p
      { port.queues with txQueue := (enqueuePacket p port.txQueue data).2.2.queue } at hflush
    dsimp only
    rw [← hadd]
    dsimp only
    rw [← hflush]
    simp only [hstatus, hflushed, ne_eq, not_true_eq_false, false_or, if_false]
    split_ifs
    · rfl
    · rfl
    · rfl

theorem readHw_queues (deviceBase : Option Nat) (data : OutBuffer) (ptr : Ptr) :
    Driver.seen (readHw d m deviceBase portIndex data ptr) =
      d.queues.readHw m deviceBase portIndex data ptr := by
  apply onPort_queues
  intro p port
  cases deviceBase with
  | none => rfl
  | some deviceBase =>
    obtain ⟨hstaged, hstage⟩ := stageRxBytesFromHw_queues m deviceBase p port
    have hread := readFromStagedRx_queues p (stageRxBytesFromHw m deviceBase p port).2.1 data.length
    dsimp only
    rw [← hstage]
    dsimp only
    rw [← hread]
    simp only [hstaged, ne_eq, not_true_eq_false, if_false]
    split_ifs
    · rfl
    · rfl

theorem pollHwPort_queues (deviceBase : Option Nat) :
    Driver.seen (pollHwPort d m deviceBase portIndex) =
      d.queues.pollHwPort m deviceBase portIndex := by
  apply onPort_queues
  intro p port
  cases deviceBase with
  | none => rfl
  | some deviceBase =>
    obtain ⟨hflushed, hflush⟩ := flushTxQueueToHw_queues m deviceBase p port
    obtain ⟨hstaged, hstage⟩ := stageRxBytesFromHw_queues
      (flushTxQueueToHw m deviceBase p port).2.2 deviceBase p
      (flushTxQueueToHw m deviceBase p port).2.1
    dsimp only
    rw [← hflush]
    dsimp only
    rw [← hstage]
    dsimp only
    rw [readiness_queues]
    simp only [hflushed, hstaged, ne_eq, not_true_eq_false, if_false]
    split_ifs
    · rfl
    · rfl

end Functions

/-- The word loop and the byte loop store the same bytes as a byte loop. -/
theorem writeTxFifo_window (m : DeviceMemory) (deviceBase : Option Nat) (portIndex : Nat)
    (data : InBuffer) (ptr : Ptr) :
    writeTxFifo m deviceBase portIndex data ptr =
      storeWindow m deviceBase portIndex data ptr := by
  cases deviceBase with
  | none => rfl
  | some deviceBase =>
    unfold writeTxFifo storeWindow
    simp only [writeFifoWindow_eq, ← min_def_lt]

/-- Neither clamp to the capacity of a FIFO applies, since the level is a byte. -/
theorem readRxFifo_window (m : DeviceMemory) (deviceBase : Option Nat) (portIndex : Nat)
    (data : OutBuffer) (ptr : Ptr) :
    readRxFifo m deviceBase portIndex data ptr =
      loadWindow m deviceBase portIndex data ptr := by
  cases deviceBase with
  | none => rfl
  | some deviceBase =>
    unfold readRxFifo loadWindow
    simp only [readFifoWindow_eq, readFifoLevel_eq, ← min_def_lt, clamp_level]
    rfl

/-- **A call does to the queues what the queues do.** -/
theorem exec_queues (d : Driver) (m : DeviceMemory) (c : Call) :
    (c.exec d m).1 = (d.queues.exec m c).1 ∧ (c.exec d m).2.1.queues = (d.queues.exec m c).2.1 ∧
      (c.exec d m).2.2 = (d.queues.exec m c).2.2 := by
  -- Every call that goes through the driver is one of three kinds.
  have modeled : ∀ {x : Reply × Driver} {y : Reply × DriverQueues}, Driver.seen x = y →
      x.1 = y.1 ∧ x.2.queues = y.2 ∧ m = m := by
    rintro x _ rfl
    exact ⟨rfl, rfl, rfl⟩
  have hardware : ∀ {x : (Reply × DeviceMemory) × Driver}
      {y : (Reply × DeviceMemory) × DriverQueues}, Driver.seen x = y →
      x.1.1 = y.1.1 ∧ x.2.queues = y.2 ∧ x.1.2 = y.1.2 := by
    rintro x _ rfl
    exact ⟨rfl, rfl, rfl⟩
  have counter : ∀ {x : Nat × Driver} {y : Nat × DriverQueues}, Driver.seen x = y →
      Reply.counted x.1 = .counted y.1 ∧ x.2.queues = y.2 ∧ m = m := by
    rintro x _ rfl
    exact ⟨rfl, rfl, rfl⟩
  cases c with
  | getUartBase | getTxFifoBase | setDiscrete | setLoopback => exact ⟨rfl, rfl, rfl⟩
  | writeTxFifo deviceBase portIndex data ptr =>
    have hwindow := writeTxFifo_window m deviceBase portIndex data ptr
    exact ⟨congrArg Prod.fst hwindow, rfl, congrArg Prod.snd hwindow⟩
  | readRxFifo deviceBase portIndex data ptr =>
    have hwindow := readRxFifo_window m deviceBase portIndex data ptr
    exact ⟨congrArg Prod.fst hwindow, rfl, congrArg Prod.snd hwindow⟩
  | resetState | reset => exact ⟨rfl, rfl, rfl⟩
  | initializePort portIndex config => exact modeled (initializePort_queues d portIndex config)
  | getPortConfig portIndex ptr => exact modeled (getPortConfig_queues d portIndex ptr)
  | fifoLevel portIndex => exact counter (fifoLevel_queues d portIndex)
  | queueSize portIndex => exact counter (queueSize_queues d portIndex)
  | write portIndex data ptr => exact modeled (write_queues d portIndex data ptr)
  | receive portIndex data ptr => exact modeled (receive_queues d portIndex data ptr)
  | read portIndex data ptr => exact modeled (read_queues d portIndex data ptr)
  | pollPort portIndex => exact modeled (pollPort_queues d portIndex)
  | writeHw deviceBase portIndex data ptr =>
    exact hardware (writeHw_queues d m portIndex deviceBase data ptr)
  | readHw deviceBase portIndex data ptr =>
    exact hardware (readHw_queues d m portIndex deviceBase data ptr)
  | pollHwPort deviceBase portIndex => exact hardware (pollHwPort_queues d m portIndex deviceBase)
  | injectRxFrameBytes portIndex data ptr =>
    exact modeled (injectRxFrameBytes_queues d portIndex data ptr)
  | injectTxFrameBytes portIndex data ptr | injectQueueFrameBytes portIndex data ptr =>
    exact modeled (injectTxFrameBytes_queues d portIndex data ptr)
  | transferNextTxFrame portIndex => exact modeled (transferNextTxFrame_queues d portIndex)
  | queueRead portIndex data ptr => exact modeled (queueRead_queues d portIndex data ptr)

/-! ## Runs -/

/-- The driver and the device, with the inputs and answers of `queueMachine`. -/
def driverMachine : Machine (Driver × DeviceMemory)
    ((DeviceMemory → DeviceMemory) × Call) (Reply × DeviceMemory) where
  step s i :=
    let (reply, d, m) := i.2.exec s.1 (i.1 s.2)
    ((reply, m), (d, m))

/-- Forgetting the rings commutes with every call. -/
def forgetRings : Machine.Abstraction driverMachine queueMachine where
  abs s := (s.1.queues, s.2)
  answer s i := by
    obtain ⟨hreply, -, hmemory⟩ := exec_queues s.1 (i.1 s.2) i.2
    exact Prod.ext hreply hmemory
  after s i := by
    obtain ⟨-, hqueues, hmemory⟩ := exec_queues s.1 (i.1 s.2) i.2
    exact Prod.ext hqueues hmemory

theorem outputs_eq_run (d : Driver) (m : DeviceMemory)
    (k : List ((DeviceMemory → DeviceMemory) × Call)) :
    d.outputs m k = (driverMachine.run (d, m) k).1 := by
  induction k generalizing d m with
  | nil => rfl
  | cons call k ih => exact congrArg (List.cons _) (ih _ _)

/-- **The driver refines its queues.** From any state, initialised or not, every sequence of calls
gets the replies, and leaves the device memories, that the queues give, and ends in a state that
stands for the queues they end in. Zero-initialised memory stands for empty queues. -/
theorem driver_refines_queues (d : Driver) (m : DeviceMemory)
    (k : List ((DeviceMemory → DeviceMemory) × Call)) :
    (d.outputs m k = (queueMachine.run (d.queues, m) k).1 ∧
      (driverMachine.run (d, m) k).2.1.queues = (queueMachine.run (d.queues, m) k).2.1) ∧
    Driver.zero.outputs m k = (queueMachine.run (fun _ => .fresh, m) k).1 := by
  have hanswers : ∀ d : Driver, d.outputs m k = (queueMachine.run (d.queues, m) k).1 := by
    intro d
    rw [outputs_eq_run]
    exact (forgetRings.run_eq (d, m) k).1
  refine ⟨⟨hanswers d, congrArg Prod.fst (forgetRings.run_eq (d, m) k).2⟩, ?_⟩
  rw [hanswers, queues_zero]

end Xr17v358
