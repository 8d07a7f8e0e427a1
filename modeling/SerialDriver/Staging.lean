import SerialDriver.Driver

/-!
# What the internal steps of the driver do to the rings

One equation for each step that moves bytes, on any port: `transferRingBytes`, `enqueuePacket`,
`stageRxBytesFromHw` and `flushTxQueueToHw`. Their short-read and short-write branches are dead,
so every one of them succeeds. Beside each equation stands what it says about the contents.
-/

namespace Xr17v358

/-! ## Between two rings -/

/-- The number of bytes a transfer moves. -/
def transferCount (source destination : Ring) (maxBytes : Nat) : Nat :=
  min source.contents.length (min maxBytes destination.room)

/-- The clamps of the source, each a minimum by `min_def_lt`, in the order it applies them. -/
theorem clamp_transferCount (source destination : Ring) (maxBytes : Nat) :
    min destination.room (min maxBytes source.contents.length) =
      transferCount source destination maxBytes := by
  unfold transferCount
  omega

theorem transferCount_le_room (source destination : Ring) (maxBytes : Nat) :
    transferCount source destination maxBytes ≤ destination.room :=
  (min_le_right _ _).trans (min_le_right _ _)

theorem transferRingBytes_eq (source destination : Ring) (maxBytes : Nat) :
    transferRingBytes source destination maxBytes =
      (.ok, (source.readBytes (transferCount source destination maxBytes)).2,
        (destination.writeBytes
          (source.contents.take (transferCount source destination maxBytes))).2) := by
  unfold transferRingBytes
  simp only [← min_def_lt, Ring.size_eq, Ring.capacity_sub_length, clamp_transferCount]
  by_cases hzero : transferCount source destination maxBytes = 0
  · rw [if_pos hzero, hzero, Ring.readBytes_zero, List.take_zero, Ring.writeBytes_nil]
  · have hle : transferCount source destination maxBytes ≤ source.contents.length :=
      min_le_left ..
    have hroom := transferCount_le_room source destination maxBytes
    simp [hzero, hle, hroom]

theorem transferRingBytes_spec (source destination : Ring) (maxBytes : Nat) :
    (transferRingBytes source destination maxBytes).1 = .ok ∧
      (transferRingBytes source destination maxBytes).2.1.capacity = source.capacity ∧
      (transferRingBytes source destination maxBytes).2.2.capacity = destination.capacity ∧
      (transferRingBytes source destination maxBytes).2.1.contents =
        source.contents.drop (transferCount source destination maxBytes) ∧
      (transferRingBytes source destination maxBytes).2.2.contents =
        destination.contents ++
          source.contents.take (transferCount source destination maxBytes) := by
  rw [transferRingBytes_eq]
  refine ⟨rfl, Ring.capacity_readBytes .., Ring.capacity_writeBytes ..,
    Ring.contents_readBytes .., ?_⟩
  rw [Ring.contents_writeBytes, List.take_take,
    Nat.min_eq_right (transferCount_le_room source destination maxBytes)]

theorem stageRxBytesFromPending_snd (port : Port) :
    (stageRxBytesFromPending port).2 =
      { port with
        rxPending := (transferRingBytes port.rxPending port.rxFifo fifoCapacity).2.1
        rxFifo := (transferRingBytes port.rxPending port.rxFifo fifoCapacity).2.2 } := rfl

theorem flushTxQueueToModeledFifo_snd (port : Port) :
    (flushTxQueueToModeledFifo port).2 =
      { port with
        txQueue := (transferRingBytes port.txQueue port.txFifo fifoCapacity).2.1
        txFifo := (transferRingBytes port.txQueue port.txFifo fifoCapacity).2.2 } := rfl

/-! ## A packet into a ring -/

/-- **A packet is added whole or not at all.** -/
theorem enqueuePacket_eq (portIndex : Nat) (ring : Ring) (data : InBuffer) :
    enqueuePacket portIndex ring data =
      if ValidPayload data.toList ∧ (encode data.toList).length ≤ ring.room then
        (.ok, data.toList.length, (ring.writeBytes (encode data.toList)).2)
      else (.ok, 0, ring) := by
  have hfit := ring.length_le
  cases data with
  | null length =>
    rw [if_neg fun h => absurd h.1.1 (by simp [InBuffer.toList])]
    unfold enqueuePacket
    split_ifs
    · rfl
    · simp [encodeSerialData]
  | bytes data =>
    have hframe : encodeSerialData portIndex (.bytes data) .valid maxEncodedByteCount =
        encode data := rfl
    unfold enqueuePacket
    simp only [hframe, Ring.size_eq, InBuffer.length]
    show _ = if ValidPayload data ∧ (encode data).length ≤ ring.room then
      (Error.ok, data.length, (ring.writeBytes (encode data)).2) else (Error.ok, 0, ring)
    by_cases hvalid : ValidPayload data
    · have hne : data.length ≠ 0 := by have := hvalid.1; omega
      have hpos := lt_length_encode hvalid
      rw [if_neg hne]
      by_cases hroom : (encode data).length ≤ ring.room
      · have hfits : ¬ ((encode data).length = 0 ∨
            ring.capacity < ring.contents.length + (encode data).length) := by
          unfold Ring.room at hroom
          omega
        rw [if_neg hfits]
        simp [hvalid, hroom]
      · have hfull : (encode data).length = 0 ∨
            ring.capacity < ring.contents.length + (encode data).length := by
          unfold Ring.room at hroom
          omega
        rw [if_pos hfull, if_neg fun h => hroom h.2]
    · simp [encode_eq_nil hvalid, hvalid]

theorem enqueuePacket_spec (portIndex : Nat) (ring : Ring) (data : InBuffer) :
    (ValidPayload data.toList ∧ (encode data.toList).length ≤ ring.room ∧
      ∃ ring', enqueuePacket portIndex ring data = (.ok, data.toList.length, ring') ∧
        ring'.capacity = ring.capacity ∧
        ring'.contents = ring.contents ++ encode data.toList) ∨
    ((ValidPayload data.toList → ring.room < (encode data.toList).length) ∧
      enqueuePacket portIndex ring data = (.ok, 0, ring)) := by
  rw [enqueuePacket_eq]
  by_cases h : ValidPayload data.toList ∧ (encode data.toList).length ≤ ring.room
  · refine .inl ⟨h.1, h.2, (ring.writeBytes (encode data.toList)).2, if_pos h, by simp, ?_⟩
    rw [Ring.contents_writeBytes, List.take_of_length_le h.2]
  · refine .inr ⟨?_, if_neg h⟩
    intro hvalid
    exact lt_of_not_ge fun hfits => h ⟨hvalid, hfits⟩

@[simp] theorem enqueuePacket_ok (portIndex : Nat) (ring : Ring) (data : InBuffer) :
    (enqueuePacket portIndex ring data).1 = .ok := by
  rw [enqueuePacket_eq]
  split_ifs <;> rfl

/-! ## The device -/

/-- The value the next read of a level register returns. -/
def peekLevel (m : DeviceMemory) (deviceBase : Nat) (p : PortIndex) (registerOffset : Nat) : Nat :=
  (m.peek (registerAddress deviceBase p registerOffset)).toNat

theorem peekLevel_lt (m : DeviceMemory) (deviceBase : Nat) (p : PortIndex)
    (registerOffset : Nat) : peekLevel m deviceBase p registerOffset < fifoCapacity :=
  UInt8.toNat_lt _

/-- The level is below the capacity of a FIFO, so the clamp in `readFifoLevel` never applies. -/
theorem readFifoLevel_eq (m : DeviceMemory) (deviceBase : Nat) (p : PortIndex)
    (registerOffset : Nat) :
    readFifoLevel m deviceBase p registerOffset =
      (peekLevel m deviceBase p registerOffset,
        (m.read8 (registerAddress deviceBase p registerOffset)).2) := by
  have hlt := peekLevel_lt m deviceBase p registerOffset
  refine Prod.ext ?_ rfl
  show (if fifoCapacity < peekLevel m deviceBase p registerOffset then fifoCapacity
    else peekLevel m deviceBase p registerOffset) = _
  exact if_neg (by omega)

/-- Neither does a clamp to that capacity, once a count is clamped to the level. -/
theorem clamp_level (m : DeviceMemory) (deviceBase : Nat) (p : PortIndex) (registerOffset : Nat)
    (count : Nat) :
    min fifoCapacity (min (peekLevel m deviceBase p registerOffset) count) =
      min count (peekLevel m deviceBase p registerOffset) := by
  have hlt := peekLevel_lt m deviceBase p registerOffset
  omega

/-- The bytes the next reads of the front of a port's FIFO window return. -/
def peekWindow (m : DeviceMemory) (deviceBase : Nat) (p : PortIndex) (count : Nat) : List UInt8 :=
  (List.range count).map fun i => m.peek (fifoAddress deviceBase p + i)

@[simp] theorem length_peekWindow (m : DeviceMemory) (deviceBase : Nat) (p : PortIndex)
    (count : Nat) : (peekWindow m deviceBase p count).length = count := by
  simp [peekWindow]

/-- The bytes stored at the front of a port's FIFO window. -/
def window (m : DeviceMemory) (deviceBase : Nat) (p : PortIndex) (count : Nat) : List UInt8 :=
  (List.range count).map fun i => m.mem (fifoAddress deviceBase p + i)

/-- Reading a register of the port does not consume window bytes. -/
theorem peekWindow_read8 {m : DeviceMemory} {deviceBase : Nat} {p : PortIndex}
    {registerOffset : Nat} (h : registerOffset < fifoRegisterOffset) (count : Nat) :
    peekWindow (m.read8 (registerAddress deviceBase p registerOffset)).2 deviceBase p count =
      peekWindow m deviceBase p count := by
  apply List.map_congr_left
  intro i _
  have hne : fifoAddress deviceBase p + i ≠ registerAddress deviceBase p registerOffset := by
    unfold fifoAddress registerAddress
    omega
  simp only [DeviceMemory.peek, DeviceMemory.read8, Function.update_of_ne hne]

theorem readRxFifo_valid {data : OutBuffer} {ptr : Ptr} (hargs : ¬ (ptr = .null ∨ data.missing))
    (m : DeviceMemory) (deviceBase : Nat) (p : PortIndex) :
    readRxFifo m (some deviceBase) p data ptr =
      readRxFifo m (some deviceBase) p ⟨.valid, data.length⟩ .valid := by
  unfold readRxFifo
  dsimp only
  rw [if_neg hargs, if_neg (by simp [OutBuffer.missing])]

theorem readRxFifo_eq (m : DeviceMemory) (deviceBase : Nat) (p : PortIndex) (length : Nat) :
    readRxFifo m (some deviceBase) p ⟨.valid, length⟩ .valid =
      (.returned (peekWindow m deviceBase p (min length (peekLevel m deviceBase p regRxlvl))),
        ((m.read8 (registerAddress deviceBase p regRxlvl)).2.load (fifoAddress deviceBase p)
          (min length (peekLevel m deviceBase p regRxlvl))).2) := by
  unfold readRxFifo
  simp only [OutBuffer.missing, reduceCtorEq, false_and, decide_false, Bool.false_eq_true,
    or_self, if_false, p.isLt, dif_pos, readFifoLevel_eq, ← min_def_lt, clamp_level,
    readFifoWindow_eq]
  rw [DeviceMemory.load_fst]
  exact congrArg (fun bytes => (Reply.returned bytes, _)) (peekWindow_read8 (by decide) _)

/-- The number of bytes one call stages from the device: the room left, and what both reads of the
level register allow. -/
def stageCount (m : DeviceMemory) (deviceBase : Nat) (p : PortIndex) (port : Port) : Nat :=
  min (min port.rxFifo.room (peekLevel m deviceBase p regRxlvl))
    (peekLevel (m.read8 (registerAddress deviceBase p regRxlvl)).2 deviceBase p regRxlvl)

/-- The device after a call staged bytes from it. -/
def stageMemory (m : DeviceMemory) (deviceBase : Nat) (p : PortIndex) (port : Port) :
    DeviceMemory :=
  let m₁ := (m.read8 (registerAddress deviceBase p regRxlvl)).2
  if min port.rxFifo.room (peekLevel m deviceBase p regRxlvl) = 0 then m₁
  else
    ((m₁.read8 (registerAddress deviceBase p regRxlvl)).2.load (fifoAddress deviceBase p)
      (stageCount m deviceBase p port)).2

theorem stageCount_le (m : DeviceMemory) (deviceBase : Nat) (p : PortIndex) (port : Port) :
    stageCount m deviceBase p port ≤ fifoCapacity :=
  (min_le_right _ _).trans (peekLevel_lt ..).le

theorem stageCount_le_room (m : DeviceMemory) (deviceBase : Nat) (p : PortIndex) (port : Port) :
    stageCount m deviceBase p port ≤ port.rxFifo.room :=
  (min_le_left _ _).trans (min_le_left _ _)

/-- Nothing is staged from an empty FIFO or into a full ring. -/
theorem stageCount_eq_zero {m : DeviceMemory} {deviceBase : Nat} {p : PortIndex} {port : Port}
    (h : min port.rxFifo.room (peekLevel m deviceBase p regRxlvl) = 0) :
    stageCount m deviceBase p port = 0 ∧
      (port.rxFifo.writeBytes (peekWindow m deviceBase p 0)).2 = port.rxFifo := by
  refine ⟨?_, congrArg Prod.snd port.rxFifo.writeBytes_nil⟩
  unfold stageCount
  omega

theorem stageRxBytesFromHw_eq (m : DeviceMemory) (deviceBase : Nat) (p : PortIndex)
    (port : Port) :
    stageRxBytesFromHw m deviceBase p port =
      (.ok,
        { port with
          rxFifo := (port.rxFifo.writeBytes
            (peekWindow m deviceBase p (stageCount m deviceBase p port))).2 },
        stageMemory m deviceBase p port) := by
  unfold stageRxBytesFromHw stageMemory
  simp only [readFifoLevel_eq, Ring.size_eq, Ring.capacity_sub_length, ← min_def_lt, clamp_level]
  by_cases hzero : min port.rxFifo.room (peekLevel m deviceBase p regRxlvl) = 0
  · obtain ⟨hnone, hnothing⟩ := stageCount_eq_zero hzero
    rw [hnone, if_pos hzero, if_pos hzero, hnothing]
    split_ifs <;> rfl
  · have hroom : (peekWindow m deviceBase p (stageCount m deviceBase p port)).length ≤
        port.rxFifo.room := by
      rw [length_peekWindow]
      exact stageCount_le_room m deviceBase p port
    rw [if_neg (by omega), if_neg hzero, if_neg hzero, readRxFifo_eq,
      peekWindow_read8 (by decide), if_neg (by simp [Reply.returned]), if_neg]
    · rfl
    · simp only [Reply.returned, Ring.writeBytes_fst, ne_eq, not_not]
      exact Nat.min_eq_left hroom

theorem mem_stageMemory (m : DeviceMemory) (deviceBase : Nat) (p : PortIndex) (port : Port) :
    (stageMemory m deviceBase p port).mem = m.mem := by
  unfold stageMemory
  dsimp only
  split_ifs
  · rfl
  · exact DeviceMemory.mem_load ..

theorem stageRxBytesFromHw_spec (m : DeviceMemory) (deviceBase : Nat) (p : PortIndex)
    (port : Port) :
    ∃ rxFifo m', stageRxBytesFromHw m deviceBase p port =
        (.ok, { port with rxFifo := rxFifo }, m') ∧ m'.mem = m.mem ∧
      rxFifo.capacity = port.rxFifo.capacity ∧
      rxFifo.contents =
        port.rxFifo.contents ++ peekWindow m deviceBase p (stageCount m deviceBase p port) := by
  refine ⟨_, _, stageRxBytesFromHw_eq m deviceBase p port, mem_stageMemory m deviceBase p port,
    by simp, ?_⟩
  rw [Ring.contents_writeBytes, List.take_of_length_le]
  rw [length_peekWindow]
  exact stageCount_le_room m deviceBase p port

theorem writeTxFifo_spec (m : DeviceMemory) (deviceBase : Nat) (p : PortIndex)
    (data : List UInt8) :
    writeTxFifo m (some deviceBase) p (.bytes data) .valid =
      (.counted (min data.length fifoCapacity),
        m.store (fifoAddress deviceBase p) (data.take fifoCapacity)) := by
  have htake : data.take (min data.length fifoCapacity) = data.take fifoCapacity := by
    rw [Nat.min_comm, ← List.take_take, List.take_length]
  unfold writeTxFifo
  simp only [InBuffer.missing, InBuffer.toList, reduceCtorEq, Bool.false_eq_true, or_self,
    if_false, p.isLt, dif_pos, writeFifoWindow_eq, ← min_def_lt]
  show (Reply.counted (min fifoCapacity data.length),
    m.store _ (data.take (min fifoCapacity data.length))) = _
  rw [Nat.min_comm, htake]

/-- The number of bytes one flush emits. -/
def flushCount (m : DeviceMemory) (deviceBase : Nat) (p : PortIndex) (port : Port) : Nat :=
  min port.txQueue.contents.length (peekLevel m deviceBase p regTxlvl)

theorem flushCount_lt (m : DeviceMemory) (deviceBase : Nat) (p : PortIndex) (port : Port) :
    flushCount m deviceBase p port < fifoCapacity :=
  (min_le_right _ _).trans_lt (peekLevel_lt m deviceBase p regTxlvl)

theorem length_flushed (m : DeviceMemory) (deviceBase : Nat) (p : PortIndex) (port : Port) :
    (port.txQueue.contents.take (flushCount m deviceBase p port)).length =
      flushCount m deviceBase p port :=
  List.length_take_of_le (min_le_left ..)

theorem flushCount_eq_zero_iff {m : DeviceMemory} {deviceBase : Nat} {p : PortIndex}
    {port : Port} :
    flushCount m deviceBase p port = 0 ↔
      peekLevel m deviceBase p regTxlvl = 0 ∨ port.txQueue.contents.length = 0 := by
  unfold flushCount
  omega

theorem flushTxQueueToHw_eq (m : DeviceMemory) (deviceBase : Nat) (p : PortIndex)
    (port : Port) :
    flushTxQueueToHw m deviceBase p port =
      (.ok,
        { port with txQueue := (port.txQueue.readBytes (flushCount m deviceBase p port)).2 },
        (m.read8 (registerAddress deviceBase p regTxlvl)).2.store (fifoAddress deviceBase p)
          (port.txQueue.contents.take (flushCount m deviceBase p port))) := by
  have hcount : min port.txQueue.contents.length (peekLevel m deviceBase p regTxlvl) =
      flushCount m deviceBase p port := rfl
  unfold flushTxQueueToHw
  simp only [readFifoLevel_eq, Ring.size_eq, ← min_def_lt, clamp_level, hcount]
  by_cases hzero : peekLevel m deviceBase p regTxlvl = 0 ∨ port.txQueue.contents.length = 0
  · rw [if_pos hzero, flushCount_eq_zero_iff.2 hzero, Ring.readBytes_zero]
    rfl
  · have hpos : flushCount m deviceBase p port ≠ 0 := mt flushCount_eq_zero_iff.1 hzero
    have hcap := flushCount_lt m deviceBase p port
    have hlen : (port.txQueue.readBytes (flushCount m deviceBase p port)).1.length =
        flushCount m deviceBase p port := by
      rw [Ring.readBytes_fst, length_flushed]
    rw [if_neg hzero, if_neg (by rw [hlen]; exact hpos), writeTxFifo_spec, hlen,
      if_neg (by simp [Reply.counted]), if_neg]
    · rw [Ring.readBytes_fst, List.take_take, Nat.min_eq_right hcap.le]
    · simp [Reply.counted, hcap.le]

theorem flushTxQueueToHw_spec (m : DeviceMemory) (deviceBase : Nat) (p : PortIndex)
    (port : Port) :
    ∃ txQueue m', flushTxQueueToHw m deviceBase p port =
        (.ok, { port with txQueue := txQueue }, m') ∧
      txQueue.capacity = port.txQueue.capacity ∧
      txQueue.contents = port.txQueue.contents.drop (flushCount m deviceBase p port) ∧
      m' = (m.read8 (registerAddress deviceBase p regTxlvl)).2.store (fifoAddress deviceBase p)
        (port.txQueue.contents.take (flushCount m deviceBase p port)) :=
  ⟨_, _, flushTxQueueToHw_eq m deviceBase p port, by simp, by simp, rfl⟩

end Xr17v358
