import SerialDriver.Isolation
import SerialDriver.Configuration

/-!
# The modem control registers

`xr17v358_set_discrete` and `xr17v358_set_loopback` read a port's modem control register, change one
bit and write it back. Here a run is on one device that only the driver writes to (`DeviceRun`), so
what a call leaves there is what the next call finds.

* `modemControl_tracks` — after any run, RTS and the loopback bit of a port are as the last call of
  their kind left them, and the other bits as they were. Besides these registers and the FIFO
  windows, no address ever changes.
-/

namespace Xr17v358

/-! ## Runs on one device -/

/-- A run on a device that only the driver writes to: a call finds it as the call before left it.
What a read returns may still change by itself. -/
inductive DeviceRun (permitted : Call → Prop) (start : Driver) (m₀ : DeviceMemory) :
    List Event → Driver → DeviceMemory → Prop
  | nil : DeviceRun permitted start m₀ [] start m₀
  | snoc {es : List Event} {d : Driver} {m : DeviceMemory}
      (h : DeviceRun permitted start m₀ es d m) (c : Call) (hc : permitted c) :
      DeviceRun permitted start m₀ (es ++ [⟨d, m, c⟩]) (Event.mk d m c).after
        (Event.mk d m c).memoryAfter

/-- The call passes the device at `deviceBase`, or none. -/
def Call.OnDevice (deviceBase : Nat) (c : Call) : Prop :=
  ∀ base, c.base = some base → base = deviceBase

/-- The addresses of the modem control registers. -/
def modemControl (deviceBase : Nat) : Set Nat :=
  {x | ∃ p : PortIndex, x = registerAddress deviceBase p regMcr}

variable {deviceBase : Nat} {p q : PortIndex} {c : Call} {d d' : Driver} {m m' : DeviceMemory}

theorem mcr_mem_region : registerAddress deviceBase p regMcr ∈ p.region deviceBase :=
  registerAddress_mem (by decide)

theorem mcr_ne (hpq : p ≠ q) :
    registerAddress deviceBase p regMcr ≠ registerAddress deviceBase q regMcr := by
  intro h
  have hp : registerAddress deviceBase p regMcr ∈ p.region deviceBase := mcr_mem_region
  exact Set.disjoint_left.1 (region_disjoint hpq) hp (h ▸ mcr_mem_region)

/-- Traffic never goes through a modem control register. -/
theorem mcr_not_mem_traffic :
    registerAddress deviceBase p regMcr ∉ q.traffic deviceBase := by
  intro hmem
  by_cases hpq : p = q
  · subst hpq
    rcases hmem with h | h | ⟨i, -, h⟩
    · unfold registerAddress regMcr regRxlvl at h
      omega
    · unfold registerAddress regMcr regTxlvl at h
      omega
    · unfold registerAddress regMcr fifoAddress fifoRegisterOffset at h
      omega
  · exact Set.disjoint_left.1 (region_disjoint hpq) mcr_mem_region (traffic_subset hmem)

theorem traffic_subset_compl : p.traffic deviceBase ⊆ (modemControl deviceBase)ᶜ := by
  rintro x hx ⟨q, rfl⟩
  exact mcr_not_mem_traffic hx

/-- A call on a device is a reset, is on a port, or has an index out of range. -/
theorem Call.OnDevice.cases (hc : c.OnDevice deviceBase) :
    (c = .resetState ∨ c = .reset) ∨ (∃ p, c.OnPort deviceBase p) ∨
      ∃ portIndex, c.portIndex = some portIndex ∧ getPortCount ≤ portIndex := by
  cases hindex : c.portIndex with
  | none =>
    refine .inl ?_
    cases c with
    | resetState => exact .inl rfl
    | reset => exact .inr rfl
    | _ => exact absurd hindex (by simp [Call.portIndex])
  | some portIndex =>
    refine .inr ?_
    by_cases hvalid : portIndex < getPortCount
    · exact .inl ⟨⟨portIndex, hvalid⟩, hindex, hc⟩
    · exact .inr ⟨portIndex, rfl, not_lt.1 hvalid⟩

/-- What a call that acts on some addresses of a port returns and leaves. -/
theorem Call.ActsOn.event {S : Set Nat} (h : c.ActsOn S p) (hindex : c.portIndex = some p.val) :
    ∃ act : Port → DeviceMemory → (Reply × Port) × DeviceMemory,
      (∀ port, DeviceMemory.cells.Confined S (act port)) ∧
      ∀ d m, (Event.mk d m c).reply = (act ((ensureStateInitialized d).ports p) m).1.1 ∧
        ensureStateInitialized (Event.mk d m c).after = (ensureStateInitialized d).set p
          (act ((ensureStateInitialized d).ports p) m).1.2 ∧
        (Event.mk d m c).memoryAfter = (act ((ensureStateInitialized d).ports p) m).2 := by
  obtain ⟨act, hact, hexec⟩ := h
  refine ⟨act, hact, ?_⟩
  intro d m
  have hlazily : c.Lazily d m := c.lazily hindex
  have hrun := hexec (ensureStateInitialized d) m (isInitialized_ensure d)
  refine ⟨?_, ?_, ?_⟩
  · exact hlazily.reply.trans (congrArg Prod.fst hrun)
  · exact hlazily.ensured.trans (congrArg (fun out => out.2.1) hrun)
  · exact hlazily.memory.trans (congrArg (fun out => out.2.2) hrun)

/-! ## What the driver writes to -/

/-- The address is in no FIFO window of the device. -/
def OutsideWindows (deviceBase : Nat) (x : Nat) : Prop :=
  ∀ p : PortIndex, ∀ i < fifoCapacity, x ≠ fifoAddress deviceBase p + i

section Written

variable {x : Nat} (hx : OutsideWindows deviceBase x)

include hx

theorem mem_store_window {data : List UInt8} (hdata : data.length ≤ fifoCapacity) :
    (m.store (fifoAddress deviceBase p) data).mem x = m.mem x := by
  apply DeviceMemory.mem_store_of_not_mem
  by_contra hin
  have hlt : x - fifoAddress deviceBase p < fifoCapacity := by omega
  exact hx p (x - fifoAddress deviceBase p) hlt (by omega)

theorem mem_flush (port : Port) : (flushTxQueueToHw m deviceBase p port).2.2.mem x = m.mem x := by
  rw [flushTxQueueToHw_eq]
  refine mem_store_window hx ?_
  rw [length_flushed]
  exact (flushCount_lt m deviceBase p port).le

theorem mem_writeTxFifo (portIndex : Nat) (data : InBuffer) (ptr : Ptr) :
    (writeTxFifo m (some deviceBase) portIndex data ptr).2.mem x = m.mem x := by
  unfold writeTxFifo
  simp only [writeFifoWindow_eq]
  split_ifs with hnull hindex hlong
  · rfl
  · exact mem_store_window hx ((List.length_take_le ..))
  · exact mem_store_window hx ((List.length_take_le ..).trans (not_lt.1 hlong))
  · rfl

omit hx in
theorem mem_readRxFifo (portIndex : Nat) (data : OutBuffer) (ptr : Ptr) :
    (readRxFifo m (some deviceBase) portIndex data ptr).2.mem x = m.mem x := by
  by_cases hargs : ptr = .null ∨ data.missing
  · simp only [readRxFifo, if_pos hargs]
  · by_cases hindex : portIndex < getPortCount
    · simp only [readRxFifo, if_neg hargs, dif_pos hindex, readFifoWindow_eq,
        DeviceMemory.mem_load]
      rfl
    · simp only [readRxFifo, if_neg hargs, dif_neg hindex]

omit hx in
theorem mem_signal (hc : c.OnDevice deviceBase) (hsignal : c.IsSignal)
    (hmcr : x ∉ modemControl deviceBase) : (Event.mk d m c).memoryAfter.mem x = m.mem x := by
  rcases hc.cases with hreset | ⟨p, hp⟩ | ⟨portIndex, hindex, hcount⟩
  · rcases hreset with rfl | rfl <;> exact hsignal.elim
  · obtain ⟨act, hact, hevent⟩ := (hp.actsOn_signal hsignal).event hp.portIndex
    rw [(hevent d m).2.2]
    have hne : x ∉ ({registerAddress deviceBase p regMcr} : Set Nat) := fun h => hmcr ⟨p, h⟩
    exact congrArg Prod.fst ((hact _).frame m x hne)
  · rw [(turnedAway_of_rejected (.inl ⟨portIndex, hindex, hcount⟩)).memory]

/-- **A call writes to FIFO windows and modem control registers only.** -/
theorem mem_kept (hc : c.OnDevice deviceBase) (hmcr : x ∉ modemControl deviceBase) :
    (Event.mk d m c).memoryAfter.mem x = m.mem x := by
  cases c with
  | writeTxFifo base portIndex data ptr =>
    cases base with
    | none => rfl
    | some base =>
      obtain rfl := hc base rfl
      exact mem_writeTxFifo hx portIndex data ptr
  | readRxFifo base portIndex data ptr =>
    cases base with
    | none => rfl
    | some base => exact mem_readRxFifo portIndex data ptr
  | writeHw base portIndex data ptr =>
    refine @onPort_hands _ _ _ _ _ (fun out : Reply × DeviceMemory => out.2.mem x = m.mem x) rfl ?_
    intro q port
    cases base with
    | none => rfl
    | some base =>
      obtain rfl := hc base rfl
      dsimp only
      split_ifs
      · rfl
      · rfl
      · exact mem_flush hx _
      · exact mem_flush hx _
  | readHw base portIndex data ptr =>
    refine @onPort_hands _ _ _ _ _ (fun out : Reply × DeviceMemory => out.2.mem x = m.mem x) rfl ?_
    intro q port
    cases base with
    | none => rfl
    | some base =>
      simp only [stageRxBytesFromHw_eq, ne_eq, not_true_eq_false, if_false]
      split_ifs
      · rfl
      · exact congrFun (mem_stageMemory ..) x
  | pollHwPort base portIndex =>
    refine @onPort_hands _ _ _ _ _ (fun out : Reply × DeviceMemory => out.2.mem x = m.mem x) rfl ?_
    intro q port
    cases base with
    | none => rfl
    | some base =>
      obtain rfl := hc base rfl
      have hflush := @mem_flush base q m x hx port
      simp only [flushTxQueueToHw_eq, stageRxBytesFromHw_eq, ne_eq, not_true_eq_false, if_false]
        at hflush ⊢
      split_ifs
      · exact (congrFun (mem_stageMemory ..) x).trans hflush
      · exact (congrFun (mem_stageMemory ..) x).trans hflush
  | setDiscrete base portIndex asserted =>
    exact mem_signal hc trivial hmcr
  | setLoopback base portIndex enabled => exact mem_signal hc trivial hmcr
  | _ => rfl

end Written

/-! ## The bits of a modem control register -/

/-- The port that `xr17v358_set_discrete` drives, and whether it asserts the line. -/
def Call.discrete : Call → Option (Nat × Bool)
  | setDiscrete (some _) portIndex asserted => some (portIndex, asserted ≠ 0)
  | _ => none

/-- The port that `xr17v358_set_loopback` puts into or out of loopback. -/
def Call.loopback : Call → Option (Nat × Bool)
  | setLoopback (some _) portIndex enabled => some (portIndex, enabled ≠ 0)
  | _ => none

/-- The last setting of a kind on a port. -/
def lastSet (setting : Call → Option (Nat × Bool)) (p : PortIndex) (es : List Event) :
    Option Bool :=
  es.foldl (fun last e =>
    match setting e.call with
    | some (portIndex, value) => if portIndex = p then some value else last
    | none => last) none

theorem lastSet_snoc (setting : Call → Option (Nat × Bool)) (p : PortIndex) (es : List Event)
    (e : Event) :
    lastSet setting p (es ++ [e]) =
      match setting e.call with
      | some (portIndex, value) => if portIndex = p then some value else lastSet setting p es
      | none => lastSet setting p es := List.foldl_concat ..

/-- The register of a port after a run: each bit as the last call of its kind left it. An asserted
line is a cleared RTS bit. -/
structure ModemControl (deviceBase : Nat) (m₀ : DeviceMemory) (es : List Event) (m : DeviceMemory)
    (p : PortIndex) : Prop where
  rts : m.mem (registerAddress deviceBase p regMcr) &&& mcrRts =
    (lastSet Call.discrete p es).elim (m₀.mem (registerAddress deviceBase p regMcr) &&& mcrRts)
      fun asserted => if asserted then 0 else mcrRts
  loopback : m.mem (registerAddress deviceBase p regMcr) &&& mcrLoopback =
    (lastSet Call.loopback p es).elim
      (m₀.mem (registerAddress deviceBase p regMcr) &&& mcrLoopback)
      fun enabled => if enabled then mcrLoopback else 0
  others : m.mem (registerAddress deviceBase p regMcr) &&& ~~~(mcrRts ||| mcrLoopback) =
    m₀.mem (registerAddress deviceBase p regMcr) &&& ~~~(mcrRts ||| mcrLoopback)
  plain : m.upcoming (registerAddress deviceBase p regMcr) = []

/-- The value with a bit set or cleared. -/
def drive (set : Bool) (bit value : UInt8) : UInt8 :=
  if set then value ||| bit else value &&& ~~~bit

theorem drive_self (set : Bool) (bit value : UInt8) :
    drive set bit value &&& bit = if set then bit else 0 := by
  unfold drive
  apply UInt8.toBitVec_inj.1
  ext i hi
  cases set with
  | false => simp
  | true => simpa using Or.inr

/-- A mask without the bit does not see it. -/
theorem drive_other {bit mask : UInt8} (h : bit &&& mask = 0) (set : Bool) (value : UInt8) :
    drive set bit value &&& mask = value &&& mask := by
  have hbit : ∀ i (hi : i < 8), (bit.toBitVec[i] && mask.toBitVec[i]) = false := by
    intro i hi
    have hand := congrArg (fun byte : UInt8 => byte.toBitVec[i]) h
    simpa using hand
  unfold drive
  apply UInt8.toBitVec_inj.1
  ext i hi
  have hi' := hbit i hi
  cases set with
  | false => simp; grind
  | true => simp; grind

theorem setDiscrete_drives (m : DeviceMemory) (asserted : Int) :
    setDiscrete m (some deviceBase) p asserted =
      (.code .ok, (m.read8 (registerAddress deviceBase p regMcr)).2.write8
        (registerAddress deviceBase p regMcr)
        (drive (asserted = 0) mcrRts (m.peek (registerAddress deviceBase p regMcr)))) := by
  simp only [setDiscrete, p.isLt, dif_pos, drive]
  by_cases h : asserted = 0
  · simp [h, DeviceMemory.read8]
  · simp [h, DeviceMemory.read8]

theorem setLoopback_drives (m : DeviceMemory) (enabled : Int) :
    setLoopback m (some deviceBase) p enabled =
      (.code .ok, (m.read8 (registerAddress deviceBase p regMcr)).2.write8
        (registerAddress deviceBase p regMcr)
        (drive (enabled ≠ 0) mcrLoopback (m.peek (registerAddress deviceBase p regMcr)))) := by
  simp only [setLoopback, p.isLt, dif_pos, drive]
  by_cases h : enabled = 0
  · simp [h, DeviceMemory.read8]
  · simp [h, DeviceMemory.read8]

/-- An address that a call does not act on stays as it is. -/
theorem acts_elsewhere {S : Set Nat} {x : Nat} (hindex : c.portIndex = some q.val)
    (h : c.ActsOn S q) (hx : x ∉ S) :
    (Event.mk d m c).memoryAfter.mem x = m.mem x ∧
      (Event.mk d m c).memoryAfter.upcoming x = m.upcoming x := by
  obtain ⟨act, hact, hevent⟩ := h.event hindex
  rw [(hevent d m).2.2]
  exact Prod.ext_iff.1 ((hact _).frame m x hx)

/-- Without a device nothing is driven. -/
theorem signal_refused {x : Nat} (hp : c.OnPort deviceBase p) (hc : c.IsSignal)
    (hdiscrete : ∀ value, c.discrete ≠ some (p.val, value))
    (hloopback : ∀ value, c.loopback ≠ some (p.val, value)) :
    (Event.mk d m c).memoryAfter.mem x = m.mem x ∧
      (Event.mk d m c).memoryAfter.upcoming x = m.upcoming x := by
  obtain ⟨hindex, -⟩ := hp
  cases c with
  | setDiscrete base portIndex asserted =>
    obtain rfl := Option.some.inj hindex
    cases base with
    | none => exact ⟨rfl, rfl⟩
    | some base => exact absurd rfl (hdiscrete _)
  | setLoopback base portIndex enabled =>
    obtain rfl := Option.some.inj hindex
    cases base with
    | none => exact ⟨rfl, rfl⟩
    | some base => exact absurd rfl (hloopback _)
  | _ => exact hc.elim

section Step

variable {m₀ : DeviceMemory} {es : List Event} (h : ModemControl deviceBase m₀ es m p)

include h

/-- A register that is plain reads as what is stored. -/
theorem ModemControl.peek_eq : m.peek (registerAddress deviceBase p regMcr) =
    m.mem (registerAddress deviceBase p regMcr) := by
  rw [DeviceMemory.peek, h.plain]
  rfl

theorem ModemControl.discrete (d : Driver) (asserted : Int) :
    ModemControl deviceBase m₀ (es ++ [⟨d, m, .setDiscrete (some deviceBase) p asserted⟩])
      (setDiscrete m (some deviceBase) p asserted).2 p := by
  have hmem : (setDiscrete m (some deviceBase) p asserted).2.mem
      (registerAddress deviceBase p regMcr) =
      drive (asserted = 0) mcrRts (m.mem (registerAddress deviceBase p regMcr)) := by
    rw [setDiscrete_drives, ← h.peek_eq]
    exact Function.update_self ..
  refine ⟨?_, ?_, ?_, ?_⟩
  · rw [hmem, drive_self, lastSet_snoc]
    by_cases hzero : asserted = 0 <;> simp [Call.discrete, hzero]
  · rw [hmem, drive_other (by decide), h.loopback, lastSet_snoc]
    rfl
  · rw [hmem, drive_other (by decide), h.others]
  · rw [setDiscrete_drives]
    show Function.update .. = _
    rw [Function.update_self, h.plain]
    rfl

theorem ModemControl.loopedBack (d : Driver) (enabled : Int) :
    ModemControl deviceBase m₀ (es ++ [⟨d, m, .setLoopback (some deviceBase) p enabled⟩])
      (setLoopback m (some deviceBase) p enabled).2 p := by
  have hmem : (setLoopback m (some deviceBase) p enabled).2.mem
      (registerAddress deviceBase p regMcr) =
      drive (enabled ≠ 0) mcrLoopback (m.mem (registerAddress deviceBase p regMcr)) := by
    rw [setLoopback_drives, ← h.peek_eq]
    exact Function.update_self ..
  refine ⟨?_, ?_, ?_, ?_⟩
  · rw [hmem, drive_other (by decide), h.rts, lastSet_snoc]
    rfl
  · rw [hmem, drive_self, lastSet_snoc]
    by_cases hzero : enabled = 0 <;> simp [Call.loopback, hzero]
  · rw [hmem, drive_other (by decide), h.others]
  · rw [setLoopback_drives]
    show Function.update .. = _
    rw [Function.update_self, h.plain]
    rfl

/-- A call that drives neither bit of the port leaves its register alone. -/
theorem ModemControl.other (d : Driver) (hc : c.OnDevice deviceBase)
    (hdiscrete : ∀ value, c.discrete ≠ some (p.val, value))
    (hloopback : ∀ value, c.loopback ≠ some (p.val, value)) :
    ModemControl deviceBase m₀ (es ++ [⟨d, m, c⟩]) (Event.mk d m c).memoryAfter p := by
  have hkept : (Event.mk d m c).memoryAfter.mem (registerAddress deviceBase p regMcr) =
        m.mem (registerAddress deviceBase p regMcr) ∧
      (Event.mk d m c).memoryAfter.upcoming (registerAddress deviceBase p regMcr) =
        m.upcoming (registerAddress deviceBase p regMcr) := by
    rcases hc.cases with hreset | ⟨q, hq⟩ | ⟨portIndex, hindex, hcount⟩
    · rcases hreset with rfl | rfl <;> exact ⟨rfl, rfl⟩
    · by_cases hsignal : c.IsSignal
      · by_cases hpq : p = q
        · subst hpq
          exact signal_refused hq hsignal hdiscrete hloopback
        · exact acts_elsewhere hq.portIndex (hq.actsOn_signal hsignal) (mcr_ne hpq)
      · exact acts_elsewhere hq.portIndex (hq.actsOn hsignal) mcr_not_mem_traffic
    · rw [(turnedAway_of_rejected (.inl ⟨portIndex, hindex, hcount⟩)).memory]
      exact ⟨rfl, rfl⟩
  have hset : ∀ setting : Call → Option (Nat × Bool),
      (∀ value, setting c ≠ some (p.val, value)) →
        lastSet setting p (es ++ [⟨d, m, c⟩]) = lastSet setting p es := by
    intro setting hsetting
    rw [lastSet_snoc]
    split
    · rename_i portIndex value heq
      refine if_neg ?_
      rintro rfl
      exact hsetting value heq
    · rfl
  obtain ⟨hmem, hupcoming⟩ := hkept
  refine ⟨?_, ?_, ?_, ?_⟩
  · rw [hmem, hset _ hdiscrete, h.rts]
  · rw [hmem, hset _ hloopback, h.loopback]
  · rw [hmem, h.others]
  · rw [hupcoming, h.plain]

/-- **One call, and the register of a port.** -/
theorem ModemControl.step (d : Driver) (hc : c.OnDevice deviceBase) :
    ModemControl deviceBase m₀ (es ++ [⟨d, m, c⟩]) (Event.mk d m c).memoryAfter p := by
  by_cases hset : (∃ value, c.discrete = some (p.val, value)) ∨
      ∃ value, c.loopback = some (p.val, value)
  · cases c with
    | setDiscrete base portIndex asserted =>
      cases base with
      | none => simp [Call.discrete, Call.loopback] at hset
      | some base =>
        obtain rfl := hc base rfl
        obtain ⟨value, hvalue⟩ := hset.resolve_right (by simp [Call.loopback])
        obtain rfl : portIndex = p := congrArg Prod.fst (Option.some.inj hvalue)
        exact h.discrete d asserted
    | setLoopback base portIndex enabled =>
      cases base with
      | none => simp [Call.discrete, Call.loopback] at hset
      | some base =>
        obtain rfl := hc base rfl
        obtain ⟨value, hvalue⟩ := hset.resolve_left (by simp [Call.discrete])
        obtain rfl : portIndex = p := congrArg Prod.fst (Option.some.inj hvalue)
        exact h.loopedBack d enabled
    | _ => simp [Call.discrete, Call.loopback] at hset
  · rw [not_or, not_exists, not_exists] at hset
    exact h.other d hc hset.1 hset.2

end Step

/-- **The driver's whole effect on the device.** On a device that only the driver writes to, whose
modem control registers read as what is stored: after any run of calls, from any state, the RTS and
the loopback bit of each port are as the last call of their kind left them, the other bits of these
registers are as they were, and no address outside these registers and the FIFO windows has changed.
-/
theorem modemControl_tracks {start : Driver} {m₀ : DeviceMemory} {es : List Event}
    (hplain : ∀ p : PortIndex, m₀.upcoming (registerAddress deviceBase p regMcr) = [])
    (hrun : DeviceRun (Call.OnDevice deviceBase) start m₀ es d m) :
    (∀ p, ModemControl deviceBase m₀ es m p) ∧
      ∀ x, x ∉ modemControl deviceBase → OutsideWindows deviceBase x → m.mem x = m₀.mem x := by
  induction hrun with
  | nil => exact ⟨fun p => ⟨rfl, rfl, rfl, hplain p⟩, fun _ _ _ => rfl⟩
  | @snoc es d m _ c hc ih =>
    obtain ⟨hregisters, hrest⟩ := ih
    refine ⟨fun p => (hregisters p).step d hc, ?_⟩
    intro x hmcr hx
    rw [mem_kept hx hc hmcr, hrest x hmcr hx]

theorem modemControl_tracks_port : ∃ es d m,
    DeviceRun (Call.OnDevice 0) .zero default es d m ∧
      es.map Event.call = [.setDiscrete (some 0) 3 1, .setLoopback (some 0) 3 1,
        .setDiscrete (some 0) 3 0] ∧
      m.mem 0x0C04 &&& mcrRts = mcrRts ∧ m.mem 0x0C04 &&& mcrLoopback = mcrLoopback := by
  have honDevice : ∀ base, (some 0 : Option Nat) = some base → base = 0 :=
    fun base h => (Option.some.inj h).symm
  have hrun := (((@DeviceRun.nil (Call.OnDevice 0) .zero default).snoc (.setDiscrete (some 0) 3 1)
    honDevice).snoc (.setLoopback (some 0) 3 1) honDevice).snoc (.setDiscrete (some 0) 3 0)
    honDevice
  obtain ⟨hrts, hloopback, -, -⟩ := (modemControl_tracks (fun _ => rfl) hrun).1 3
  exact ⟨_, _, _, hrun, rfl, hrts, hloopback⟩

end Xr17v358
