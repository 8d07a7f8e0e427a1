import SerialDriver.Signals

/-!
# Configuration and modem control never influence traffic

A call that configures a port, asks for its configuration or its addresses, or drives its modem
control register is a control call. The other calls neither see the configuration
(`Call.IsData.blind`) nor go through a modem control register (`mcr_not_mem_traffic`). So on a device
that only the driver writes to they return and leave the same whatever control calls are made
between them (`traffic_independent`).
-/

namespace Xr17v358

open Noninterference

/-- The calls that configure, query or signal. -/
def Call.IsControl : Call → Bool
  | initializePort .. | getPortConfig .. | getUartBase .. | getTxFifoBase .. | setDiscrete ..
  | setLoopback .. => true
  | _ => false

/-- The driver and its device, as a call takes one to the next. -/
def Call.onDevice (s : Driver × DeviceMemory) (c : Call) : Reply × Driver × DeviceMemory :=
  c.exec s.1 s.2

/-- The ports have the same rings. -/
def Port.SameRings (port port' : Port) : Prop := ∃ config, port' = port.withConfig config

/-- The drivers have the same rings, and the devices the same cells but for the modem control
registers. -/
def SameTraffic (deviceBase : Nat) (s s' : Driver × DeviceMemory) : Prop :=
  s.1.Related Port.SameRings s'.1 ∧ DeviceMemory.cells.AgreeOn (modemControl deviceBase)ᶜ s.2 s'.2

variable {deviceBase : Nat} {p : PortIndex} {c : Call} {d d' : Driver} {m m' : DeviceMemory}

/-! ## Traffic -/

/-- On the same device. -/
theorem Call.IsData.sameRings (hc : c.IsData) (h : d.Related Port.SameRings d') :
    (Event.mk d m c).reply = (Event.mk d' m c).reply ∧
      (Event.mk d m c).memoryAfter = (Event.mk d' m c).memoryAfter ∧
      (Event.mk d m c).after.Related Port.SameRings (Event.mk d' m c).after := by
  obtain ⟨α, portIndex, rejected, body, out, hblind, hexec⟩ := hc.blind m
  have hrelated : SameResult (Driver.Related · Port.SameRings ·)
      (d.onPort portIndex rejected body) (d'.onPort portIndex rejected body) := by
    apply onPort_related h
    rintro p port _ ⟨config, rfl⟩
    rw [hblind]
    exact ⟨rfl, config, rfl⟩
  unfold Event.reply Event.memoryAfter Event.after
  rw [hexec, hexec, hrelated.1]
  exact ⟨rfl, rfl, hrelated.2⟩

theorem Port.SameRings.of_eq {port port' : Port} (h : port = port') : port.SameRings port' :=
  ⟨port.config, h.symm⟩

theorem Port.SameRings.symm {port port' : Port} (h : port.SameRings port') :
    port'.SameRings port := by
  obtain ⟨config, rfl⟩ := h
  exact ⟨port.config, rfl⟩

theorem Port.SameRings.trans {port port' port'' : Port} (h : port.SameRings port')
    (h' : port'.SameRings port'') : port.SameRings port'' := by
  obtain ⟨config, rfl⟩ := h
  obtain ⟨config', rfl⟩ := h'
  exact ⟨config', rfl⟩

/-- The initialisation that a reset skips makes no difference to it. -/
theorem reset_ensure (d : Driver) (p : PortIndex) :
    ((ensureStateInitialized d).ports p).reset = (d.ports p).reset := by
  unfold ensureStateInitialized
  split_ifs <;> rfl

/-- A reset puts the same configuration on every port. -/
theorem reset_related (h : d.Related Port.SameRings d') (p : PortIndex) :
    (d.ports p).reset = (d'.ports p).reset := by
  obtain ⟨config, hconfig⟩ := h p
  rw [← reset_ensure d, ← reset_ensure d', hconfig]
  rfl

/-- Other calls than control calls do not see the configuration. -/
theorem sameRings_of_traffic (hc : c.IsControl = false) (h : d.Related Port.SameRings d') :
    (Event.mk d m c).reply = (Event.mk d' m c).reply ∧
      (Event.mk d m c).memoryAfter = (Event.mk d' m c).memoryAfter ∧
      (Event.mk d m c).after.Related Port.SameRings (Event.mk d' m c).after := by
  cases c with
  | initializePort | getPortConfig | getUartBase | getTxFifoBase | setDiscrete | setLoopback =>
    exact absurd hc Bool.noConfusion
  | writeTxFifo | readRxFifo => exact ⟨rfl, rfl, h⟩
  | resetState => exact ⟨rfl, rfl, fun p => .of_eq (reset_related h p)⟩
  | reset => exact ⟨rfl, rfl, fun p => .of_eq (congrArg Port.scrub (reset_related h p))⟩
  | _ => exact Call.IsData.sameRings trivial h

/-- A call with an index out of range does not look at the device. -/
theorem outOfRange {portIndex : Nat} (hindex : c.portIndex = some portIndex)
    (hcount : getPortCount ≤ portIndex) :
    (Event.mk d m c).reply = (Event.mk d m' c).reply ∧
      (Event.mk d m c).after = (Event.mk d m' c).after := by
  have hinvalid : ¬ portIndex < getPortCount := not_lt.2 hcount
  cases c with
  | writeHw | readHw | pollHwPort =>
    obtain rfl := Option.some.inj hindex
    unfold Event.reply Event.after Call.exec Call.exec.hardware
    unfold writeHw readHw pollHwPort Driver.onPort
    simp only [dif_neg hinvalid]
    exact ⟨trivial, trivial⟩
  | writeTxFifo base | readRxFifo base =>
    obtain rfl := Option.some.inj hindex
    refine ⟨?_, rfl⟩
    cases base with
    | none => rfl
    | some base =>
      unfold Event.reply Call.exec Call.exec.direct
      simp only [writeTxFifo, readRxFifo, dif_neg hinvalid]
      split_ifs <;> rfl
  | setDiscrete base | setLoopback base =>
    obtain rfl := Option.some.inj hindex
    refine ⟨?_, rfl⟩
    cases base with
    | none => rfl
    | some base =>
      unfold Event.reply Call.exec Call.exec.direct
      simp only [setDiscrete, setLoopback, dif_neg hinvalid]
  | _ => exact ⟨rfl, rfl⟩

/-- With the same rings, on devices that differ in modem control registers. -/
theorem OnDevice.sameCells (hc : c.OnDevice deviceBase) (hsignal : ¬ c.IsSignal)
    (h : DeviceMemory.cells.AgreeOn (modemControl deviceBase)ᶜ m m') :
    (Event.mk d m c).reply = (Event.mk d m' c).reply ∧
      ensureStateInitialized (Event.mk d m c).after =
        ensureStateInitialized (Event.mk d m' c).after ∧
      DeviceMemory.cells.AgreeOn (modemControl deviceBase)ᶜ (Event.mk d m c).memoryAfter
        (Event.mk d m' c).memoryAfter := by
  rcases hc.cases with hreset | ⟨p, hp⟩ | ⟨portIndex, hindex, hcount⟩
  · rcases hreset with rfl | rfl <;> exact ⟨rfl, rfl, h⟩
  · obtain ⟨act, hact, hevent⟩ := (hp.actsOn hsignal).event hp.portIndex
    have hact' := (hact ((ensureStateInitialized d).ports p)).mono traffic_subset_compl
    obtain ⟨hreply, hafter, hmemory⟩ := hevent d m
    obtain ⟨hreply', hafter', hmemory'⟩ := hevent d m'
    rw [hreply, hreply', hafter, hafter', hmemory, hmemory', hact'.out h]
    exact ⟨rfl, rfl, hact'.after h⟩
  · obtain ⟨hreply, hafter⟩ := @outOfRange c d m m' portIndex hindex hcount
    have hrejected : c.Rejected := .inl ⟨portIndex, hindex, hcount⟩
    rw [hreply, hafter, (turnedAway_of_rejected hrejected).memory,
      (turnedAway_of_rejected hrejected).memory]
    exact ⟨rfl, rfl, h⟩

/-! ## Control calls -/

/-- A control call keeps the rings of every port. -/
theorem sameRings_of_control (hc : c.IsControl = true) (h : d.Related Port.SameRings d') :
    (Event.mk d m c).after.Related Port.SameRings d' := by
  cases c with
  | getUartBase | getTxFifoBase | setDiscrete | setLoopback => exact h
  | initializePort portIndex accepted =>
    refine onPort_keeps_related h ?_
    rintro p port _ ⟨config, rfl⟩
    dsimp only
    split_ifs
    · exact ⟨config, rfl⟩
    · exact ⟨config, rfl⟩
  | getPortConfig portIndex ptr =>
    refine onPort_keeps_related h ?_
    rintro p port _ ⟨config, rfl⟩
    split_ifs
    · exact ⟨config, rfl⟩
    · exact ⟨config, rfl⟩
  | _ => exact absurd hc Bool.noConfusion

/-- It changes nothing on the device but modem control registers. -/
theorem sameCells_of_control (hc : c.IsControl = true) (honDevice : c.OnDevice deviceBase) :
    DeviceMemory.cells.AgreeOn (modemControl deviceBase)ᶜ (Event.mk d m c).memoryAfter m := by
  by_cases hsignal : c.IsSignal
  · rcases honDevice.cases with hreset | ⟨p, hp⟩ | ⟨portIndex, hindex, hcount⟩
    · rcases hreset with rfl | rfl <;> exact hsignal.elim
    · obtain ⟨act, hact, hevent⟩ := (hp.actsOn_signal hsignal).event hp.portIndex
      have hmcr : {registerAddress deviceBase p regMcr} ⊆ modemControl deviceBase :=
        Set.singleton_subset_iff.2 ⟨p, rfl⟩
      rw [(hevent d m).2.2]
      exact ((hact _).mono hmcr).frame m
    · rw [(turnedAway_of_rejected (.inl ⟨portIndex, hindex, hcount⟩)).memory]
      exact .refl _ m
  · cases c with
    | initializePort | getPortConfig | getUartBase | getTxFifoBase => exact .refl _ m
    | setDiscrete | setLoopback => exact absurd trivial hsignal
    | _ => exact absurd hc Bool.noConfusion

/-- **The rings and the rest of the device are all that traffic depends on, and control calls leave
them alone.** -/
theorem unwinding_traffic (deviceBase : Nat) :
    Unwinding (fun s c => Call.onDevice s c) (fun c => !c.IsControl) (Call.OnDevice deviceBase)
      (SameTraffic deviceBase) where
  consistent := by
    rintro ⟨d, m⟩ ⟨d', m'⟩ c hc hlow ⟨hrings, hcells⟩
    have hcontrol : c.IsControl = false := by simpa using hlow
    have hsignal : ¬ c.IsSignal := by
      cases c <;> first | exact id | exact absurd hcontrol Bool.noConfusion
    obtain ⟨hreply, hmemory, hafter⟩ := sameRings_of_traffic (m := m) hcontrol hrings
    obtain ⟨hreply', hafter', hmemory'⟩ := OnDevice.sameCells (d := d') hc hsignal hcells
    refine ⟨hreply.trans hreply', ?_, ?_⟩
    · intro p
      have hp := hafter p
      rwa [hafter'] at hp
    · show DeviceMemory.cells.AgreeOn _ (Event.mk d m c).memoryAfter (Event.mk d' m' c).memoryAfter
      rwa [hmemory]
  respects := by
    rintro ⟨d, m⟩ ⟨d', m'⟩ c hc hlow ⟨hrings, hcells⟩
    have hcontrol : c.IsControl = true := by simpa using hlow
    exact ⟨sameRings_of_control hcontrol hrings,
      (sameCells_of_control hcontrol hc).trans hcells⟩

/-! ## Runs -/

/-- A run as a sequence of inputs. -/
theorem DeviceRun.inputs {permitted : Call → Prop} {start : Driver} {m₀ : DeviceMemory}
    {es : List Event} (hrun : DeviceRun permitted start m₀ es d m) :
    (∀ c ∈ es.map Event.call, permitted c) ∧
      final (fun s c => Call.onDevice s c) (start, m₀) (es.map Event.call) = (d, m) ∧
      (es.filter fun e => !e.call.IsControl).map Event.reply =
        lowOutputs (fun s c => Call.onDevice s c) (fun c => !c.IsControl) (start, m₀)
          (es.map Event.call) := by
  induction hrun with
  | nil => exact ⟨by simp, rfl, rfl⟩
  | @snoc es d m _ c hc ih =>
    obtain ⟨hcalls, hfinal, hreplies⟩ := ih
    rw [List.map_append, List.map_singleton, final_snoc, lowOutputs_snoc, hfinal, ← hreplies,
      List.filter_append, List.map_append]
    refine ⟨?_, rfl, ?_⟩
    · intro c' hc'
      rcases List.mem_append.1 hc' with hmem | hmem
      · exact hcalls c' hmem
      · exact List.mem_singleton.1 hmem ▸ hc
    · congr 1
      cases hcontrol : c.IsControl with
      | true => simp [hcontrol]
      | false =>
        simp only [hcontrol, List.filter_cons, List.filter_nil, Bool.not_false, if_true]
        rfl

/-- **Control calls never influence traffic.** Two runs on a device that only the driver writes to,
from the same state, that make the same other calls in the same order, with whatever control calls
between them: these calls return the same, and in the end the rings of every port, and all of the
device but the modem control registers, are the same. -/
theorem traffic_independent {start d d' : Driver} {m₀ m m' : DeviceMemory} {es es' : List Event}
    (hrun : DeviceRun (Call.OnDevice deviceBase) start m₀ es d m)
    (hrun' : DeviceRun (Call.OnDevice deviceBase) start m₀ es' d' m')
    (hsame : (es.map Event.call).filter (fun c => !c.IsControl) =
      (es'.map Event.call).filter fun c => !c.IsControl) :
    (es.filter fun e => !e.call.IsControl).map Event.reply =
        (es'.filter fun e => !e.call.IsControl).map Event.reply ∧
      d.Related Port.SameRings d' ∧
      ∀ x ∉ modemControl deviceBase, m.mem x = m'.mem x ∧ m.upcoming x = m'.upcoming x := by
  obtain ⟨hcalls, hfinal, hreplies⟩ := hrun.inputs
  obtain ⟨hcalls', hfinal', hreplies'⟩ := hrun'.inputs
  have hunwinding := unwinding_traffic deviceBase
  have hrefl : SameTraffic deviceBase (start, m₀) (start, m₀) :=
    ⟨fun p => .of_eq rfl, .refl _ m₀⟩
  have hleft := hunwinding.purge_final hrefl hcalls
  have hright := hunwinding.purge_final hrefl hcalls'
  rw [hfinal] at hleft
  rw [hfinal', ← hsame] at hright
  refine ⟨?_, ?_, ?_⟩
  · rw [hreplies, hreplies']
    exact hunwinding.noninterference hrefl hrefl hcalls hcalls' hsame
  · intro p
    exact (hleft.1 p).trans (hright.1 p).symm
  · intro x hx
    exact DeviceMemory.agreeOn_iff.1 (hleft.2.trans hright.2.symm) x hx

theorem traffic_independent_loopback : ∃ es es' d d' m m',
    DeviceRun (Call.OnDevice 0) .zero default es d m ∧
      DeviceRun (Call.OnDevice 0) .zero default es' d' m' ∧ es.length = 1 ∧ es'.length = 3 ∧
      (es.filter fun e => !e.call.IsControl).map Event.reply =
        (es'.filter fun e => !e.call.IsControl).map Event.reply := by
  have honDevice : ∀ base, (some 0 : Option Nat) = some base → base = 0 :=
    fun base h => (Option.some.inj h).symm
  have hrun := (@DeviceRun.nil (Call.OnDevice 0) .zero default).snoc
    (.writeHw (some 0) 1 (.bytes [0x41]) .valid) honDevice
  have hrun' := (((@DeviceRun.nil (Call.OnDevice 0) .zero default).snoc
    (.setLoopback (some 0) 1 1) honDevice).snoc
    (.initializePort 1 (some ⟨9600, stopBits2, parityEven⟩)) fun _ h => nomatch h).snoc
    (.writeHw (some 0) 1 (.bytes [0x41]) .valid) honDevice
  exact ⟨_, _, _, _, _, _, hrun, hrun', rfl, rfl, (traffic_independent hrun hrun' rfl).1⟩

end Xr17v358
