import SerialDriver.Guards

/-!
# Ports are isolated

A port owns its rings, its configuration and the `0x400` addresses of its registers and FIFO window.
Every call on a port is confined to these (`Call.OnPort.confined`), so calls on two ports commute
and neither changes anything of the other port (`ports_isolated`). The lazy initialisation resets
every port, whichever call comes first, so it commutes too.
-/

namespace Xr17v358

open Cells

/-! ## The addresses of a port -/

/-- The addresses of a port's registers and FIFO window. -/
def PortIndex.region (deviceBase : Nat) (p : PortIndex) : Set Nat :=
  {x | deviceBase + p.offset ≤ x ∧ x < deviceBase + p.offset + portStride}

variable {deviceBase : Nat} {p q : PortIndex}

theorem PortIndex.offset_eq : ∀ p : PortIndex, p.offset = portStride * p.val := by decide

theorem region_disjoint (hpq : p ≠ q) : Disjoint (p.region deviceBase) (q.region deviceBase) := by
  have hne : p.val ≠ q.val := fun h => hpq (Fin.ext h)
  rw [Set.disjoint_left]
  rintro x ⟨hp, hp'⟩ ⟨hq, hq'⟩
  rw [PortIndex.offset_eq] at hp hp' hq hq'
  unfold portStride at *
  omega

theorem registerAddress_mem {registerOffset : Nat} (h : registerOffset < portStride) :
    registerAddress deviceBase p registerOffset ∈ p.region deviceBase := by
  unfold registerAddress
  exact ⟨Nat.le_add_right .., Nat.add_lt_add_left h _⟩

/-- The addresses that traffic goes through: the two level registers and the FIFO window. -/
def PortIndex.traffic (deviceBase : Nat) (p : PortIndex) : Set Nat :=
  {x | x = registerAddress deviceBase p regRxlvl ∨ x = registerAddress deviceBase p regTxlvl ∨
    ∃ i < fifoCapacity, x = fifoAddress deviceBase p + i}

theorem rxlvl_mem : registerAddress deviceBase p regRxlvl ∈ p.traffic deviceBase := .inl rfl

theorem txlvl_mem : registerAddress deviceBase p regTxlvl ∈ p.traffic deviceBase := .inr (.inl rfl)

theorem fifoAddress_mem {i : Nat} (h : i < fifoCapacity) :
    fifoAddress deviceBase p + i ∈ p.traffic deviceBase := .inr (.inr ⟨i, h, rfl⟩)

theorem traffic_subset : p.traffic deviceBase ⊆ p.region deviceBase := by
  rintro x (rfl | rfl | ⟨i, hi, rfl⟩)
  · exact registerAddress_mem (by decide)
  · exact registerAddress_mem (by decide)
  · unfold fifoAddress fifoCapacity at *
    unfold PortIndex.region fifoRegisterOffset portStride
    constructor <;> omega

/-! ## What the device functions consult -/

section Device

variable {m m' : DeviceMemory} (h : DeviceMemory.cells.AgreeOn (p.traffic deviceBase) m m')

include h

theorem peekLevel_congr {registerOffset : Nat}
    (hmem : registerAddress deviceBase p registerOffset ∈ p.traffic deviceBase) :
    peekLevel m deviceBase p registerOffset = peekLevel m' deviceBase p registerOffset :=
  congrArg UInt8.toNat (DeviceMemory.peek_congr h hmem)

theorem peekWindow_congr {count : Nat} (hcount : count ≤ fifoCapacity) :
    peekWindow m deviceBase p count = peekWindow m' deviceBase p count := by
  apply List.map_congr_left
  intro i hi
  exact DeviceMemory.peek_congr h (fifoAddress_mem ((List.mem_range.1 hi).trans_le hcount))

theorem stageCount_congr (port : Port) :
    stageCount m deviceBase p port = stageCount m' deviceBase p port := by
  have hnext := DeviceMemory.agreeOn_read8 h (registerAddress deviceBase p regRxlvl)
  rw [stageCount, stageCount, peekLevel_congr h rxlvl_mem, peekLevel_congr hnext rxlvl_mem]

end Device

/-! ## Device functions are confined to the port's addresses -/

theorem confined_readRxFifo (data : OutBuffer) (ptr : Ptr) :
    DeviceMemory.cells.Confined (p.traffic deviceBase)
      fun m => readRxFifo m (some deviceBase) p data ptr := by
  by_cases hargs : ptr = .null ∨ data.missing
  · simp only [readRxFifo, if_pos hargs]
    exact .pure _
  · have hrun : ∀ m, readRxFifo m (some deviceBase) p data ptr = _ := fun m =>
      (readRxFifo_valid hargs m deviceBase p).trans (readRxFifo_eq m deviceBase p data.length)
    have hle : ∀ m, min data.length (peekLevel m deviceBase p regRxlvl) ≤ fifoCapacity :=
      fun m => (min_le_right _ _).trans (peekLevel_lt ..).le
    simp only [hrun]
    constructor
    · intro m
      exact (DeviceMemory.frame_load fun i hi => fifoAddress_mem (hi.trans_le (hle m))).trans
        (DeviceMemory.frame_read8 rxlvl_mem)
    · intro m m' h
      dsimp only
      rw [peekLevel_congr h rxlvl_mem, peekWindow_congr h (hle m')]
    · intro m m' h
      dsimp only
      rw [peekLevel_congr h rxlvl_mem]
      exact DeviceMemory.agreeOn_load (DeviceMemory.agreeOn_read8 h _) _ _

theorem confined_writeTxFifo (data : InBuffer) (ptr : Ptr) :
    DeviceMemory.cells.Confined (p.traffic deviceBase)
      fun m => writeTxFifo m (some deviceBase) p data ptr := by
  by_cases hargs : ptr = .null ∨ data.missing
  · simp only [writeTxFifo, if_pos hargs]
    exact .pure _
  · have hrun : ∀ m, writeTxFifo m (some deviceBase) p data ptr =
        (.counted (min data.length fifoCapacity),
          m.store (fifoAddress deviceBase p) (data.toList.take (min data.length fifoCapacity))) := by
      intro m
      have hcount : (if fifoCapacity < data.length then fifoCapacity else data.length) =
          min data.length fifoCapacity := by
        split_ifs <;> omega
      simp only [writeTxFifo, if_neg hargs, p.isLt, dif_pos, writeFifoWindow_eq, hcount]
    simp only [hrun]
    refine DeviceMemory.confined_store ?_ _
    intro i hi
    rw [List.length_take] at hi
    exact fifoAddress_mem (by omega)

theorem confined_setDiscrete (asserted : Int) :
    DeviceMemory.cells.Confined {registerAddress deviceBase p regMcr}
      fun m => setDiscrete m (some deviceBase) p asserted := by
  simp only [setDiscrete, p.isLt, dif_pos]
  exact DeviceMemory.confined_update (Set.mem_singleton _)
    (fun value => if asserted ≠ 0 then value &&& ~~~mcrRts else value ||| mcrRts) _

theorem confined_setLoopback (enabled : Int) :
    DeviceMemory.cells.Confined {registerAddress deviceBase p regMcr}
      fun m => setLoopback m (some deviceBase) p enabled := by
  simp only [setLoopback, p.isLt, dif_pos]
  exact DeviceMemory.confined_update (Set.mem_singleton _)
    (fun value => if enabled ≠ 0 then value ||| mcrLoopback else value &&& ~~~mcrLoopback) _

theorem confined_stageRxBytesFromHw (port : Port) :
    DeviceMemory.cells.Confined (p.traffic deviceBase) fun m =>
      ((stageRxBytesFromHw m deviceBase p port).2.1, (stageRxBytesFromHw m deviceBase p port).2.2) := by
  simp only [stageRxBytesFromHw_eq]
  constructor
  · intro m
    have hlevel : DeviceMemory.cells.AgreeOn (p.traffic deviceBase)ᶜ
        (m.read8 (registerAddress deviceBase p regRxlvl)).2 m :=
      DeviceMemory.frame_read8 rxlvl_mem
    unfold stageMemory
    dsimp only
    split_ifs
    · exact hlevel
    · have hwindow : ∀ i < stageCount m deviceBase p port,
          fifoAddress deviceBase p + i ∈ p.traffic deviceBase :=
        fun i hi => fifoAddress_mem (hi.trans_le (stageCount_le m deviceBase p port))
      exact ((DeviceMemory.frame_load hwindow).trans
        (DeviceMemory.frame_read8 rxlvl_mem)).trans hlevel
  · intro m m' h
    dsimp only
    rw [stageCount_congr h, peekWindow_congr h (stageCount_le m' deviceBase p port)]
  · intro m m' h
    unfold stageMemory
    dsimp only
    rw [peekLevel_congr h rxlvl_mem, stageCount_congr h]
    split_ifs
    · exact DeviceMemory.agreeOn_read8 h _
    · exact DeviceMemory.agreeOn_load
        (DeviceMemory.agreeOn_read8 (DeviceMemory.agreeOn_read8 h _) _) _ _

theorem confined_flushTxQueueToHw (port : Port) :
    DeviceMemory.cells.Confined (p.traffic deviceBase) fun m =>
      ((flushTxQueueToHw m deviceBase p port).2.1, (flushTxQueueToHw m deviceBase p port).2.2) := by
  have hcount : ∀ {m m'}, DeviceMemory.cells.AgreeOn (p.traffic deviceBase) m m' →
      flushCount m deviceBase p port = flushCount m' deviceBase p port := fun h => by
    rw [flushCount, flushCount, peekLevel_congr h txlvl_mem]
  simp only [flushTxQueueToHw_eq]
  constructor
  · intro m
    refine (DeviceMemory.frame_store ?_).trans
      (DeviceMemory.frame_read8 txlvl_mem)
    intro i hi
    rw [length_flushed] at hi
    exact fifoAddress_mem (hi.trans (flushCount_lt m deviceBase p port))
  · intro m m' h
    dsimp only
    rw [hcount h]
  · intro m m' h
    dsimp only
    rw [hcount h]
    exact DeviceMemory.agreeOn_store (DeviceMemory.agreeOn_read8 h _) _ _

/-! ## Calls on a port -/

/-- The device base a call passes, when it is not a null pointer. -/
def Call.base : Call → Option Nat
  | writeTxFifo deviceBase .. | readRxFifo deviceBase .. | writeHw deviceBase ..
  | readHw deviceBase .. | pollHwPort deviceBase _ | setDiscrete deviceBase ..
  | setLoopback deviceBase .. => deviceBase
  | _ => none

/-- A call on a port of the device at `deviceBase`. -/
structure Call.OnPort (deviceBase : Nat) (p : PortIndex) (c : Call) : Prop where
  portIndex : c.portIndex = some p.val
  base : ∀ base, c.base = some base → base = deviceBase

/-- On an initialised driver the call acts on one port's state and the addresses of `S`. -/
def Call.ActsOn (S : Set Nat) (p : PortIndex) (c : Call) : Prop :=
  ∃ act : Port → DeviceMemory → (Reply × Port) × DeviceMemory,
    (∀ port, DeviceMemory.cells.Confined S (act port)) ∧
    ∀ d m, d.isInitialized = true → c.exec d m =
      ((act (d.ports p) m).1.1, d.set p (act (d.ports p) m).1.2, (act (d.ports p) m).2)

/-- It acts on the port's own addresses. -/
def Call.LocalTo (deviceBase : Nat) (p : PortIndex) (c : Call) : Prop :=
  c.ActsOn (p.region deviceBase) p

variable {c : Call} {S : Set Nat}

/-- A call that works on the modelled rings only. -/
theorem actsOn_modeled {α : Type} {reply : α → Reply} {rejected : α}
    {body : PortIndex → Port → α × Port}
    (hexec : ∀ d m, c.exec d m =
      (reply (d.onPort p rejected body).1, (d.onPort p rejected body).2, m)) :
    c.ActsOn S p := by
  refine ⟨fun port m => ((reply (body p port).1, (body p port).2), m), fun _ => .pure _, ?_⟩
  intro d m h
  rw [hexec, onPort_eq h]

/-- A call that may also touch the device. -/
theorem actsOn_hardware {rejected : DeviceMemory → Reply × DeviceMemory}
    {body : DeviceMemory → PortIndex → Port → (Reply × DeviceMemory) × Port}
    (hexec : ∀ d m, c.exec d m = ((d.onPort p (rejected m) (body m)).1.1,
      (d.onPort p (rejected m) (body m)).2, (d.onPort p (rejected m) (body m)).1.2))
    (hbody : ∀ port, DeviceMemory.cells.Confined S fun m =>
      (((body m p port).1.1, (body m p port).2), (body m p port).1.2)) :
    c.ActsOn S p := by
  refine ⟨_, hbody, ?_⟩
  intro d m h
  rw [hexec, onPort_eq h]

/-- Without a device base such a call is turned away. -/
theorem actsOn_noBase {rejected : DeviceMemory → Reply × DeviceMemory}
    {body : DeviceMemory → PortIndex → Port → (Reply × DeviceMemory) × Port}
    (hexec : ∀ d m, c.exec d m = ((d.onPort p (rejected m) (body m)).1.1,
      (d.onPort p (rejected m) (body m)).2, (d.onPort p (rejected m) (body m)).1.2))
    (hbody : ∀ m port, body m p port = ((.code .errorInvalidArgument, m), port)) :
    c.ActsOn S p := by
  refine actsOn_hardware hexec fun port => ?_
  simp only [hbody]
  exact .pure (Reply.code .errorInvalidArgument, port)

/-- A call that never looks at the driver's state. -/
theorem actsOn_direct {act : DeviceMemory → Reply × DeviceMemory}
    (hexec : ∀ d m, c.exec d m = ((act m).1, d, (act m).2))
    (hact : DeviceMemory.cells.Confined S act) :
    c.ActsOn S p := by
  refine ⟨fun port m => (((act m).1, port), (act m).2), fun port => hact.map (·, port), ?_⟩
  intro d m _
  rw [hexec, Driver.set_self]

/-- A call that works on the device only. -/
theorem actsOn_device {base : Option Nat} (act : Option Nat → DeviceMemory → Reply × DeviceMemory)
    (hexec : ∀ d m, c.exec d m = ((act base m).1, d, (act base m).2))
    (hbase : ∀ base', base = some base' → base' = deviceBase)
    (hnull : ∀ m, act none m = (.code .errorInvalidArgument, m))
    (hact : DeviceMemory.cells.Confined S (act (some deviceBase))) :
    c.ActsOn S p := by
  refine actsOn_direct hexec ?_
  cases base with
  | none =>
    simp only [funext hnull]
    exact .pure _
  | some base =>
    obtain rfl := hbase base rfl
    exact hact

theorem actsOn_writeHw (data : InBuffer) (ptr : Ptr) :
    (Call.writeHw (some deviceBase) p data ptr).ActsOn (p.traffic deviceBase) p := by
  refine actsOn_hardware (fun _ _ => rfl) ?_
  intro port
  by_cases hargs : ptr = .null ∨ data.missing
  · simp only [if_pos hargs]
    exact .pure _
  · by_cases hzero : (enqueuePacket p port.txQueue data).2.1 = 0
    · simp only [if_neg hargs, hzero, or_true, if_true]
      exact .pure _
    · have hflush := (@confined_flushTxQueueToHw deviceBase p
        { port with txQueue := (enqueuePacket p port.txQueue data).2.2 }).map
        (Reply.counted (enqueuePacket p port.txQueue data).2.1, ·)
      simpa [hargs, hzero, flushTxQueueToHw_eq] using hflush

theorem actsOn_readHw (data : OutBuffer) (ptr : Ptr) :
    (Call.readHw (some deviceBase) p data ptr).ActsOn (p.traffic deviceBase) p := by
  refine actsOn_hardware (fun _ _ => rfl) ?_
  intro port
  by_cases hargs : ptr = .null ∨ data.missing
  · simp only [if_pos hargs]
    exact .pure _
  · have hstage := (@confined_stageRxBytesFromHw deviceBase p port).map
      (readFromStagedRx p · data.length)
    simpa [hargs, stageRxBytesFromHw_eq] using hstage

theorem actsOn_pollHwPort :
    (Call.pollHwPort (some deviceBase) p).ActsOn (p.traffic deviceBase) p := by
  refine actsOn_hardware (fun _ _ => rfl) ?_
  intro port
  have hstage := (@confined_flushTxQueueToHw deviceBase p port).bind
    fun port => (@confined_stageRxBytesFromHw deviceBase p port).map
      fun port => (if port.rxFifo.hasCompleteFrame then Reply.code .messageReady
        else .code .messageNotReady, port)
  simp only [flushTxQueueToHw_eq, stageRxBytesFromHw_eq, ne_eq, not_true_eq_false, if_false]
    at hstage ⊢
  convert hstage using 3 with m
  · split_ifs <;> rfl
  · split_ifs <;> rfl

/-- The calls that drive the modem control register. -/
def Call.IsSignal : Call → Prop
  | setDiscrete .. | setLoopback .. => True
  | _ => False

/-- They act on nothing but it. -/
theorem Call.OnPort.actsOn_signal (h : c.OnPort deviceBase p) (hc : c.IsSignal) :
    c.ActsOn {registerAddress deviceBase p regMcr} p := by
  obtain ⟨hindex, hbase⟩ := h
  cases c with
  | setDiscrete base portIndex asserted =>
    obtain rfl := Option.some.inj hindex
    exact actsOn_device (fun base m => Xr17v358.setDiscrete m base p asserted) (fun _ _ => rfl)
      hbase (fun _ => rfl) (confined_setDiscrete asserted)
  | setLoopback base portIndex enabled =>
    obtain rfl := Option.some.inj hindex
    exact actsOn_device (fun base m => Xr17v358.setLoopback m base p enabled) (fun _ _ => rfl)
      hbase (fun _ => rfl) (confined_setLoopback enabled)
  | _ => exact hc.elim

/-- The other calls leave it alone. -/
theorem Call.OnPort.actsOn (h : c.OnPort deviceBase p) (hc : ¬ c.IsSignal) :
    c.ActsOn (p.traffic deviceBase) p := by
  obtain ⟨hindex, hbase⟩ := h
  cases c with
  | initializePort portIndex config =>
    obtain rfl := Option.some.inj hindex
    exact @actsOn_modeled _ _ _ _ id _ _ fun _ _ => rfl
  | getPortConfig portIndex ptr =>
    obtain rfl := Option.some.inj hindex
    exact @actsOn_modeled _ _ _ _ id _ _ fun _ _ => rfl
  | write portIndex data ptr | receive portIndex data ptr
  | injectRxFrameBytes portIndex data ptr | injectTxFrameBytes portIndex data ptr
  | injectQueueFrameBytes portIndex data ptr =>
    obtain rfl := Option.some.inj hindex
    exact @actsOn_modeled _ _ _ _ id _ _ fun _ _ => rfl
  | read portIndex data ptr | queueRead portIndex data ptr =>
    obtain rfl := Option.some.inj hindex
    exact @actsOn_modeled _ _ _ _ id _ _ fun _ _ => rfl
  | pollPort portIndex | transferNextTxFrame portIndex =>
    obtain rfl := Option.some.inj hindex
    exact @actsOn_modeled _ _ _ _ id _ _ fun _ _ => rfl
  | fifoLevel portIndex | queueSize portIndex =>
    obtain rfl := Option.some.inj hindex
    exact @actsOn_modeled _ _ _ _ .counted _ _ fun _ _ => rfl
  | getUartBase portIndex ptr => exact actsOn_direct (fun _ _ => rfl) (.pure _)
  | getTxFifoBase portIndex ptr => exact actsOn_direct (fun _ _ => rfl) (.pure _)
  | writeTxFifo base portIndex data ptr =>
    obtain rfl := Option.some.inj hindex
    exact actsOn_device (fun base m => Xr17v358.writeTxFifo m base p data ptr) (fun _ _ => rfl) hbase
      (fun _ => rfl) (confined_writeTxFifo data ptr)
  | readRxFifo base portIndex data ptr =>
    obtain rfl := Option.some.inj hindex
    exact actsOn_device (fun base m => Xr17v358.readRxFifo m base p data ptr) (fun _ _ => rfl) hbase
      (fun _ => rfl) (confined_readRxFifo data ptr)
  | setDiscrete | setLoopback => exact absurd trivial hc
  | writeHw base portIndex data ptr =>
    obtain rfl := Option.some.inj hindex
    cases base with
    | none => exact actsOn_noBase (fun _ _ => rfl) fun _ _ => rfl
    | some base =>
      obtain rfl := hbase base rfl
      exact actsOn_writeHw data ptr
  | readHw base portIndex data ptr =>
    obtain rfl := Option.some.inj hindex
    cases base with
    | none => exact actsOn_noBase (fun _ _ => rfl) fun _ _ => rfl
    | some base =>
      obtain rfl := hbase base rfl
      exact actsOn_readHw data ptr
  | pollHwPort base portIndex =>
    obtain rfl := Option.some.inj hindex
    cases base with
    | none => exact actsOn_noBase (fun _ _ => rfl) fun _ _ => rfl
    | some base =>
      obtain rfl := hbase base rfl
      exact actsOn_pollHwPort
  | resetState | reset => exact absurd hindex (by simp [Call.portIndex])

/-- **A call on a port is local to it.** -/
theorem Call.OnPort.localTo (h : c.OnPort deviceBase p) : c.LocalTo deviceBase p := by
  by_cases hc : c.IsSignal
  · obtain ⟨act, hact, hexec⟩ := h.actsOn_signal hc
    have hmcr : registerAddress deviceBase p regMcr ∈ p.region deviceBase :=
      registerAddress_mem (by decide)
    exact ⟨act, fun port => (hact port).mono (Set.singleton_subset_iff.2 hmcr), hexec⟩
  · obtain ⟨act, hact, hexec⟩ := h.actsOn hc
    exact ⟨act, fun port => (hact port).mono traffic_subset, hexec⟩

/-! ## Calls on two ports -/

/-- A driver's ports and the device: a cell for each port and for each address. -/
def systemCells : Cells ((PortIndex → Port) × DeviceMemory) (PortIndex ⊕ ℕ) :=
  (Cells.pi PortIndex Port).prod DeviceMemory.cells

/-- A call on an initialised driver with these ports. -/
def Call.run (c : Call) (s : (PortIndex → Port) × DeviceMemory) :
    Reply × (PortIndex → Port) × DeviceMemory :=
  ((c.exec ⟨s.1, true⟩ s.2).1, (c.exec ⟨s.1, true⟩ s.2).2.1.ports, (c.exec ⟨s.1, true⟩ s.2).2.2)

/-- **A call on a port touches and consults its port only.** -/
theorem Call.OnPort.confined (h : c.OnPort deviceBase p) :
    systemCells.Confined (entry p (p.region deviceBase)) c.run := by
  obtain ⟨act, hact, hexec⟩ := h.localTo
  have hrun : c.run = fun s => ((act (s.1 p) s.2).1.1,
      (Function.update s.1 p (act (s.1 p) s.2).1.2, (act (s.1 p) s.2).2)) := by
    funext s
    rw [Call.run, hexec ⟨s.1, true⟩ s.2 rfl]
    rfl
  rw [hrun]
  exact .atEntry hact p

/-! ## Lazy initialisation -/

/-- The function initialises the driver. -/
def Call.Initializes : Call → Prop
  | getUartBase .. | getTxFifoBase .. | writeTxFifo .. | readRxFifo .. | setDiscrete ..
  | setLoopback .. => False
  | _ => True

variable {d : Driver} {m : DeviceMemory}

/-- What a call does, whether or not it finds the driver initialised. -/
structure Call.Lazily (c : Call) (d : Driver) (m : DeviceMemory) : Prop where
  reply : (c.exec d m).1 = (c.exec (ensureStateInitialized d) m).1
  memory : (c.exec d m).2.2 = (c.exec (ensureStateInitialized d) m).2.2
  ensured : ensureStateInitialized (c.exec d m).2.1 = (c.exec (ensureStateInitialized d) m).2.1
  initializes : c.Initializes → ensureStateInitialized (c.exec d m).2.1 = (c.exec d m).2.1
  keeps : ¬ c.Initializes → (c.exec d m).2.1 = d

/-- A function that goes through `Driver.onPort`. -/
theorem lazily_of_onPort {α : Type} {portIndex : Nat} {rejected : α}
    {body : PortIndex → Port → α × Port} (out : α → Reply × DeviceMemory) (hc : c.Initializes)
    (hexec : ∀ d, c.exec d m = ((out (d.onPort portIndex rejected body).1).1,
      (d.onPort portIndex rejected body).2, (out (d.onPort portIndex rejected body).1).2)) :
    c.Lazily d m := by
  have hinit : ensureStateInitialized (c.exec d m).2.1 = (c.exec d m).2.1 := by
    rw [hexec]
    exact if_pos onPort_isInitialized
  have hsame : c.exec d m = c.exec (ensureStateInitialized d) m := by
    rw [hexec, hexec (ensureStateInitialized d), ← onPort_ensure]
  refine ⟨?_, ?_, ?_, fun _ => hinit, fun h => absurd hc h⟩
  · rw [hsame]
  · rw [hsame]
  · rw [hinit, hsame]

/-- A function that never looks at the driver's state. -/
theorem lazily_direct {out : Reply × DeviceMemory} (hc : ¬ c.Initializes)
    (hexec : ∀ d, c.exec d m = (out.1, d, out.2)) : c.Lazily d m := by
  refine ⟨?_, ?_, ?_, fun h => absurd h hc, fun _ => ?_⟩
  · rw [hexec, hexec]
  · rw [hexec, hexec]
  · rw [hexec, hexec]
  · rw [hexec]

/-- **Initialisation may come before a call.** -/
theorem Call.lazily {portIndex : Nat} (hindex : c.portIndex = some portIndex) : c.Lazily d m := by
  cases c with
  | initializePort | getPortConfig | write | read | pollPort | receive | injectRxFrameBytes
  | injectTxFrameBytes | injectQueueFrameBytes | transferNextTxFrame | queueRead =>
    exact lazily_of_onPort (·, m) trivial fun _ => rfl
  | writeHw | readHw | pollHwPort => exact lazily_of_onPort id trivial fun _ => rfl
  | fifoLevel | queueSize => exact lazily_of_onPort (.counted ·, m) trivial fun _ => rfl
  | getUartBase portIndex ptr =>
    exact @lazily_direct _ _ _ (Xr17v358.getUartBase portIndex ptr, m) id fun _ => rfl
  | getTxFifoBase portIndex ptr =>
    exact @lazily_direct _ _ _ (Xr17v358.getTxFifoBase portIndex ptr, m) id fun _ => rfl
  | writeTxFifo | readRxFifo | setDiscrete | setLoopback => exact lazily_direct id fun _ => rfl
  | resetState | reset => exact absurd hindex (by simp [Call.portIndex])

theorem ensureStateInitialized_eq (d : Driver) :
    ensureStateInitialized d = ⟨(ensureStateInitialized d).ports, true⟩ := by
  rw [← isInitialized_ensure d]

/-- A driver as the next call initialises it, and the device. -/
def systemState (d : Driver) (m : DeviceMemory) : (PortIndex → Port) × DeviceMemory :=
  ((ensureStateInitialized d).ports, m)

/-- What a call on a port does, in terms of the initialised driver. -/
theorem Call.OnPort.event (h : c.OnPort deviceBase p) (d : Driver) (m : DeviceMemory) :
    (Event.mk d m c).reply = (c.run (systemState d m)).1 ∧
      systemState (Event.mk d m c).after (Event.mk d m c).memoryAfter =
        (c.run (systemState d m)).2 := by
  have hlazily : c.Lazily d m := c.lazily h.portIndex
  have hensured := ensureStateInitialized_eq d
  obtain ⟨act, -, hexec⟩ := h.localTo
  refine ⟨?_, Prod.ext ?_ ?_⟩
  · show (c.exec d m).1 = _
    rw [hlazily.reply, hensured]
    rfl
  · show (ensureStateInitialized (c.exec d m).2.1).ports = _
    rw [hlazily.ensured, hensured]
    rfl
  · show (c.exec d m).2.2 = _
    rw [hlazily.memory, hensured]
    rfl

/-! ## Two ports -/

section TwoCalls

variable {a b : Call} {i j : Nat} (ha : a.portIndex = some i) (hb : b.portIndex = some j)
  (m m' : DeviceMemory)

include ha hb

/-- Two calls leave the driver initialised when one of them initialises. -/
theorem ensured_pair (h : a.Initializes ∨ b.Initializes) (d : Driver) :
    ensureStateInitialized (Event.mk (Event.mk d m a).after m' b).after =
      (Event.mk (Event.mk d m a).after m' b).after := by
  by_cases hinit : b.Initializes
  · exact (b.lazily hb).initializes hinit
  · have hkeeps : (Event.mk (Event.mk d m a).after m' b).after = (Event.mk d m a).after :=
      (b.lazily hb).keeps hinit
    rw [hkeeps]
    exact (a.lazily ha).initializes (h.resolve_right hinit)

theorem ensured_pair_keeps (h : ¬ (a.Initializes ∨ b.Initializes)) (d : Driver) :
    (Event.mk (Event.mk d m a).after m' b).after = d :=
  ((b.lazily hb).keeps fun hinit => h (.inr hinit)).trans
    ((a.lazily ha).keeps fun hinit => h (.inl hinit))

end TwoCalls

/-- A call on a port leaves the other ports as they are, or as the initialisation makes them. -/
theorem ports_kept (hpq : p ≠ q) (hc : c.OnPort deviceBase p) (d : Driver) (m : DeviceMemory) :
    (Event.mk d m c).after.ports q = d.ports q ∨
      d.isInitialized = false ∧ (Event.mk d m c).after.ports q = (resetState d).ports q := by
  by_cases hinit : c.Initializes
  · have hensured : ensureStateInitialized (Event.mk d m c).after = (Event.mk d m c).after :=
      (c.lazily hc.portIndex).initializes hinit
    have hrun : (ensureStateInitialized (Event.mk d m c).after).ports =
        (c.run (systemState d m)).2.1 := congrArg Prod.fst (hc.event d m).2
    have hkept : (c.run (systemState d m)).2.1 q = (ensureStateInitialized d).ports q :=
      hc.confined.frame (systemState d m) (.inl q) hpq.symm
    rw [← hensured, hrun, hkept]
    unfold ensureStateInitialized
    cases d.isInitialized with
    | false => exact .inr ⟨rfl, rfl⟩
    | true => exact .inl rfl
  · have hkeeps : (Event.mk d m c).after = d := (c.lazily hc.portIndex).keeps hinit
    rw [hkeeps]
    exact .inl rfl

/-- A call on a port leaves the device memory of the other ports as it is. -/
theorem memory_kept (hpq : p ≠ q) (hc : c.OnPort deviceBase p) (d : Driver) (m : DeviceMemory)
    {x : Nat} (hx : x ∈ q.region deviceBase) :
    (Event.mk d m c).memoryAfter.mem x = m.mem x ∧
      (Event.mk d m c).memoryAfter.upcoming x = m.upcoming x := by
  have hother : x ∉ p.region deviceBase := fun h => Set.disjoint_left.1 (region_disjoint hpq) h hx
  have hrun : (Event.mk d m c).memoryAfter = (c.run (systemState d m)).2.2 :=
    (Prod.ext_iff.1 (hc.event d m).2).2
  rw [hrun]
  exact Prod.ext_iff.1 (hc.confined.frame (systemState d m) (.inr x) hother)

/-- **Ports are isolated.** Two calls on different ports of one device return the same in either
order, and leave the same driver and the same device memory. A call on a port leaves every ring and
the configuration of another port, and the device memory of the other port, as they are; only the
lazy initialisation reaches all ports. -/
theorem ports_isolated (deviceBase : Nat) {p q : PortIndex} (hpq : p ≠ q) {a b : Call}
    (ha : a.OnPort deviceBase p) (hb : b.OnPort deviceBase q) (d : Driver) (m : DeviceMemory) :
    let a₁ := Event.mk d m a
    let b₂ := Event.mk a₁.after a₁.memoryAfter b
    let b₁ := Event.mk d m b
    let a₂ := Event.mk b₁.after b₁.memoryAfter a
    (a₁.reply = a₂.reply ∧ b₂.reply = b₁.reply ∧ b₂.after = a₂.after ∧
        b₂.memoryAfter = a₂.memoryAfter) ∧
      (a₁.after.ports q = d.ports q ∨
        d.isInitialized = false ∧ a₁.after.ports q = (resetState d).ports q) ∧
      ∀ x ∈ q.region deviceBase, a₁.memoryAfter.mem x = m.mem x ∧
        a₁.memoryAfter.upcoming x = m.upcoming x := by
  intro a₁ b₂ b₁ a₂
  have hdisj : Disjoint (entry p (p.region deviceBase)) (entry q (q.region deviceBase)) :=
    entry_disjoint hpq (region_disjoint hpq)
  obtain ⟨hreply_a₁, hstate_a₁⟩ := ha.event d m
  obtain ⟨hreply_b₁, hstate_b₁⟩ := hb.event d m
  obtain ⟨hreply_b₂, hstate_b₂⟩ := hb.event a₁.after a₁.memoryAfter
  obtain ⟨hreply_a₂, hstate_a₂⟩ := ha.event b₁.after b₁.memoryAfter
  -- The second call starts from what the first leaves.
  rw [hstate_a₁] at hreply_b₂ hstate_b₂
  rw [hstate_b₁] at hreply_a₂ hstate_a₂
  have hcomm : systemState b₂.after b₂.memoryAfter = systemState a₂.after a₂.memoryAfter :=
    hstate_b₂.trans ((ha.confined.comm hb.confined hdisj _).symm.trans hstate_a₂.symm)
  refine ⟨⟨?_, ?_, ?_, (Prod.ext_iff.1 hcomm).2⟩, ports_kept hpq ha d m,
    fun x hx => memory_kept hpq ha d m hx⟩
  · exact hreply_a₁.trans
      ((ha.confined.undisturbed hb.confined hdisj _).1.symm.trans hreply_a₂.symm)
  · exact hreply_b₂.trans
      ((hb.confined.undisturbed ha.confined hdisj.symm _).1.trans hreply_b₁.symm)
  · by_cases hinit : a.Initializes ∨ b.Initializes
    · have hports : (ensureStateInitialized b₂.after).ports =
          (ensureStateInitialized a₂.after).ports := congrArg Prod.fst hcomm
      rw [← ensured_pair ha.portIndex hb.portIndex m a₁.memoryAfter hinit d,
        ← ensured_pair hb.portIndex ha.portIndex m b₁.memoryAfter hinit.symm d,
        ensureStateInitialized_eq, hports, ← ensureStateInitialized_eq]
    · rw [ensured_pair_keeps ha.portIndex hb.portIndex m _ hinit d,
        ensured_pair_keeps hb.portIndex ha.portIndex m _ (fun h => hinit h.symm) d]

theorem ports_isolated_poll :
    (Event.mk (Event.mk .zero default (.setLoopback (some 0) 1 1)).after
        (Event.mk .zero default (.setLoopback (some 0) 1 1)).memoryAfter
        (.pollHwPort (some 0) 0)).reply =
      (Event.mk .zero default (.pollHwPort (some 0) 0)).reply := by
  have hpoll : (Call.pollHwPort (some 0) 0).OnPort 0 0 :=
    ⟨rfl, fun _ h => (Option.some.inj h).symm⟩
  have hloopback : (Call.setLoopback (some 0) 1 1).OnPort 0 1 :=
    ⟨rfl, fun _ h => (Option.some.inj h).symm⟩
  exact (ports_isolated 0 (by decide) hpoll hloopback .zero default).1.1.symm

end Xr17v358
