import SerialDriver.Service
import SerialDriver.Independence

/-!
# Hardware reception refines modeled reception

What a run on the hardware path returns and leaves in the receive rings, a run on the modeled path
does too, in which the bytes staged from the device are injected instead: `readHw` is an injection
and a `read`, `pollHwPort` is an injection and a `pollPort`, and `fifoLevel` reports the same on both
sides (`Event.modeledCalls`). The modeled run never looks at a device. `Mirrors` relates the two drivers; the modeled one has nothing pending, so
that its polls stage nothing besides.
-/

namespace Xr17v358

/-! ## The two sides -/

/-- The calls on the hardware side: those of an application, and the resets. The receiving ones are
given a device. -/
def Call.IsHardwareSide : Call → Prop
  | readHw deviceBase .. | pollHwPort deviceBase _ => deviceBase ≠ none
  | resetState | reset => True
  | c => c.IsService

/-- The calls on the modeled side. -/
def Call.IsModeledSide : Call → Prop
  | injectRxFrameBytes .. | read .. | pollPort _ | fifoLevel _ | resetState | reset => True
  | _ => False

/-- The bytes that the call stages from the device, whichever port it is on. -/
def Event.stagedBytes (e : Event) (portIndex : Nat) : List UInt8 :=
  if h : portIndex < getPortCount then e.staged ⟨portIndex, h⟩ else []

/-- What the call does to the receive rings, as calls on the modeled side. -/
def Event.modeledCalls (e : Event) : List Call :=
  match e.call with
  | .readHw _ portIndex data ptr =>
    [.injectRxFrameBytes portIndex (.bytes (e.stagedBytes portIndex)) .valid,
      .read portIndex data ptr]
  | .pollHwPort _ portIndex =>
    [.injectRxFrameBytes portIndex (.bytes (e.stagedBytes portIndex)) .valid, .pollPort portIndex]
  | .read .. | .fifoLevel _ | .resetState | .reset => [e.call]
  | _ => []

/-- The calls whose replies tell about reception. -/
def Call.Observes : Call → Bool
  | read .. | readHw .. | pollPort _ | pollHwPort .. | fifoLevel _ => true
  | _ => false

/-- What a run returned to the calls that observe reception. -/
def observed (es : List Event) : List Reply := (es.filter (·.call.Observes)).map Event.reply

theorem observed_append (es es' : List Event) : observed (es ++ es') = observed es ++ observed es' := by
  rw [observed, List.filter_append, List.map_append]
  rfl

theorem observed_one {e : Event} (h : e.call.Observes = true) : observed [e] = [e.reply] := by
  rw [observed, List.filter_singleton, h]
  rfl

theorem observed_none {e : Event} (h : e.call.Observes = false) : observed [e] = [] := by
  rw [observed, List.filter_singleton, h]
  rfl

/-- The drivers agree on the receive rings, and have nothing pending. -/
structure Mirrors (d d' : Driver) : Prop where
  ready : d.Ready
  ready' : d'.Ready
  same : d.Related Port.RxSame d'
  idle : ∀ p, (d.ports p).rxPending.contents = []

/-- Calls on the modeled side return what the event returned, and the drivers agree again. -/
def Event.MirroredFrom (e : Event) (d' : Driver) : Prop :=
  ∃ es' d'', Run Call.IsModeledSide d' es' d'' ∧ es'.map Event.call = e.modeledCalls ∧
    observed es' = observed [e] ∧ Mirrors e.after d''

variable {d d' : Driver} {m : DeviceMemory}

/-! ## Calls that do not receive -/

/-- A call that leaves the receive rings alone needs no counterpart. -/
theorem Mirrors.nothing (h : Mirrors d d') {c : Call} (hcalls : (Event.mk d m c).modeledCalls = [])
    (hsilent : c.Observes = false)
    (hkept : ∀ p, ((Event.mk d m c).after.ports p).rxFifo = (d.ports p).rxFifo ∧
      ((Event.mk d m c).after.ports p).rxPending = (d.ports p).rxPending ∧
      ((Event.mk d m c).after.ports p).rxQueue = (d.ports p).rxQueue) :
    (Event.mk d m c).MirroredFrom d' := by
  have hready : (Event.mk d m c).after.Ready :=
    ((@Run.nil (fun _ => True) d).snoc m c trivial).ready h.ready
  refine ⟨[], d', .nil, hcalls.symm, ?_, hready, h.ready', ?_, fun p => ?_⟩
  · exact (observed_none (e := ⟨d, m, c⟩) hsilent).symm
  · intro p
    obtain ⟨hfifo, hpending, hqueue⟩ := hkept p
    have hsame := h.same p
    rw [ensureStateInitialized_of_ready h.ready] at hsame
    rw [ensureStateInitialized_of_ready hready]
    exact ⟨hfifo ▸ hsame.rxFifo, hpending ▸ hsame.rxPending, hqueue ▸ hsame.rxQueue⟩
  · rw [(hkept p).2.1]
    exact h.idle p

theorem Mirrors.onQuiet (h : Mirrors d d') {c : Call} (hc : c.IsQuiet)
    (hsilent : c.Observes = false) : (Event.mk d m c).MirroredFrom d' := by
  have hcalls : (Event.mk d m c).modeledCalls = [] := by
    cases c with
    | initializePort | getPortConfig | getUartBase | getTxFifoBase | setDiscrete | setLoopback
    | queueSize => rfl
    | fifoLevel => exact absurd hsilent (by simp [Call.Observes])
    | _ => exact hc.elim
  refine h.nothing hcalls hsilent ?_
  intro p
  obtain ⟨config, hport⟩ := quiet_port h.ready m hc p
  rw [hport]
  exact ⟨rfl, rfl, rfl⟩

/-! ## An injection instead of the device -/

/-- The port with more bytes in `rx_fifo`. -/
def Port.extended (port : Port) (chunk : List UInt8) : Port :=
  { port with rxFifo := (port.rxFifo.writeBytes chunk).2 }

theorem Port.extended_nil (port : Port) : port.extended [] = port := by
  rw [extended, Ring.writeBytes_nil]

/-- What is staged is what an injection takes. -/
theorem stage_extended (m : DeviceMemory) (deviceBase : Nat) (p : PortIndex) (port : Port) :
    (stageRxBytesFromHw m deviceBase p port).2.1 =
      port.extended (peekWindow m deviceBase p (stageCount m deviceBase p port)) := by
  rw [stageRxBytesFromHw_eq]
  rfl

/-- An index out of range. -/
theorem onPort_invalid {α : Type} {rejected : α} {body : PortIndex → Port → α × Port}
    {portIndex : Nat} (hd : d.Ready) (hindex : ¬ portIndex < getPortCount) :
    d.onPort portIndex rejected body = (rejected, d) := by
  unfold Driver.onPort
  rw [ensureStateInitialized_of_ready hd]
  exact dif_neg hindex

theorem readFromStagedRx_pending (portIndex length : Nat) (port : Port) :
    (readFromStagedRx portIndex port length).2.rxPending = port.rxPending := by
  obtain ⟨e, queue, rxFifo, rxQueue, -, hrun, -⟩ := readFromStagedRx_spec portIndex port length
  rw [hrun]

section Inject

variable (hd : d.Ready) (portIndex : Nat) (chunk : List UInt8)

/-- The driver after an injection. -/
def Driver.inject (d : Driver) (portIndex : Nat) (chunk : List UInt8) : Driver :=
  (injectRxFrameBytes d portIndex (.bytes chunk) .valid).2

include hd

theorem inject_ready : (d.inject portIndex chunk).Ready :=
  injectRxFrameBytes_ready ((ensureStateInitialized_of_ready hd).symm ▸ hd) portIndex _ _

theorem inject_ports (p : PortIndex) :
    (d.inject portIndex chunk).ports p =
      if portIndex = p then (d.ports p).extended chunk else d.ports p := by
  rw [Driver.inject, injectRxFrameBytes, injectFrameBytes, onPort_ports,
    ensureStateInitialized_of_ready hd]
  rfl

theorem inject_eq (p : PortIndex) :
    d.inject p chunk = d.set p ((d.ports p).extended chunk) := by
  rw [Driver.inject, injectRxFrameBytes, injectFrameBytes, onPort_eq hd.isInitialized]
  rfl

/-- **`readHw` is an injection and a `read`.** -/
theorem readHw_injected (m : DeviceMemory) (deviceBase : Nat) (data : OutBuffer) (ptr : Ptr) :
    let e := Event.mk d m (.readHw (some deviceBase) portIndex data ptr)
    (e.reply, e.after) =
      read (d.inject portIndex (e.stagedBytes portIndex)) portIndex data ptr := by
  intro e
  by_cases hindex : portIndex < getPortCount
  · obtain ⟨p, rfl⟩ : ∃ p : PortIndex, portIndex = p := ⟨⟨portIndex, hindex⟩, rfl⟩
    have hinit := hd.isInitialized
    have hset : (d.set p ((d.ports p).extended (e.staged p))).isInitialized = true := hinit
    have hstaged : e.stagedBytes p = e.staged p := dif_pos p.isLt
    show ((readHw d m (some deviceBase) p data ptr).1.1,
      (readHw d m (some deviceBase) p data ptr).2) = _
    rw [hstaged, inject_eq hd, readHw, read, onPort_eq hinit, onPort_eq hset]
    by_cases hargs : ptr = .null ∨ data.missing
    · have hnone : e.staged p = [] := if_neg fun h => h.2 hargs
      simp only [if_pos hargs, hnone, Port.extended_nil, Driver.set_self]
    · have hsome : e.staged p = peekWindow m deviceBase p (stageCount m deviceBase p (d.ports p)) :=
        if_pos ⟨rfl, hargs⟩
      simp only [if_neg hargs, stageRxBytesFromHw_eq, ne_eq, not_true_eq_false, if_false, hsome]
      simp only [Driver.set, Function.update_self, Function.update_idem, Port.extended]
  · have hinject := inject_ready hd portIndex (e.stagedBytes portIndex)
    show ((readHw d m (some deviceBase) portIndex data ptr).1.1,
      (readHw d m (some deviceBase) portIndex data ptr).2) = _
    rw [readHw, read, onPort_invalid hd hindex, onPort_invalid hinject hindex, Driver.inject,
      injectRxFrameBytes, injectFrameBytes, onPort_invalid hd hindex]

end Inject

/-- With nothing pending, a modeled poll leaves the receive rings as they are. -/
theorem idle_stage {port : Port} (h : port.rxPending.contents = []) :
    port.RxSame (stageRxBytesFromPending (flushTxQueueToModeledFifo port).2).2 := by
  obtain ⟨-, hscap, hdcap, hsource, hdestination⟩ :=
    transferRingBytes_spec port.rxPending port.rxFifo fifoCapacity
  rw [h, List.take_nil, List.append_nil] at hdestination
  rw [h, List.drop_nil] at hsource
  rw [stageRxBytesFromPending_snd, flushTxQueueToModeledFifo_snd]
  exact ⟨⟨hdestination.symm, hdcap.symm⟩, ⟨h.trans hsource.symm, hscap.symm⟩, ⟨rfl, rfl⟩⟩

/-- **`pollHwPort` is an injection and a `pollPort`, as far as reception goes.** -/
theorem pollHwPort_injected (hd : d.Ready) (hidle : ∀ p, (d.ports p).rxPending.contents = [])
    (m : DeviceMemory) (deviceBase portIndex : Nat) :
    let e := Event.mk d m (.pollHwPort (some deviceBase) portIndex)
    SameResult (Driver.Related · Port.RxSame ·) (e.reply, e.after)
      (pollPort (d.inject portIndex (e.stagedBytes portIndex)) portIndex) := by
  intro e
  have hinject := inject_ready hd portIndex (e.stagedBytes portIndex)
  have hafter : ∀ p, (e.after.ports p).RxSame
      ((pollPort (d.inject portIndex (e.stagedBytes portIndex)) portIndex).2.ports p) := by
    intro p
    show ((pollHwPort d m (some deviceBase) portIndex).2.ports p).RxSame _
    rw [pollHwPort_port hd, pollPort_port hinject, inject_ports hd]
    by_cases hp : portIndex = p
    · subst hp
      have hstaged : e.stagedBytes p = e.staged p := dif_pos p.isLt
      rw [if_pos rfl, if_pos rfl, if_pos rfl, hstaged, stage_extended]
      have hidle' : ((d.ports p).extended (e.staged p)).rxPending.contents = [] := hidle p
      have hrings := idle_stage hidle'
      have hchunk : e.staged p = peekWindow (flushTxQueueToHw m deviceBase p (d.ports p)).2.2
          deviceBase p (stageCount (flushTxQueueToHw m deviceBase p (d.ports p)).2.2 deviceBase p
            (d.ports p)) := if_pos rfl
      rw [flushTxQueueToHw_eq] at hchunk ⊢
      exact ⟨hchunk ▸ hrings.rxFifo, hrings.rxPending, hrings.rxQueue⟩
    · rw [if_neg hp, if_neg hp, if_neg hp]
      exact ⟨⟨rfl, rfl⟩, ⟨rfl, rfl⟩, ⟨rfl, rfl⟩⟩
  refine ⟨?_, ?_⟩
  · show (pollHwPort d m (some deviceBase) portIndex).1.1 = _
    by_cases hindex : portIndex < getPortCount
    · obtain ⟨p, rfl⟩ : ∃ p : PortIndex, portIndex = p := ⟨⟨portIndex, hindex⟩, rfl⟩
      rw [pollHwPort_reply hd, pollPort_reply hinject, ← (hafter p).rxFifo.contents]
      rfl
    · rw [pollHwPort, pollPort, onPort_invalid hd hindex, onPort_invalid hinject hindex]
  · intro p
    have hready : e.after.Ready := ((@Run.nil (fun _ => True) d).snoc m _ trivial).ready hd
    have hready' : (pollPort (d.inject portIndex (e.stagedBytes portIndex)) portIndex).2.Ready :=
      pollPort_ready ((ensureStateInitialized_of_ready hinject).symm ▸ hinject) portIndex
    rw [ensureStateInitialized_of_ready hready, ensureStateInitialized_of_ready hready']
    exact hafter p

/-! ## One call -/

theorem Port.RxSame.trans {port port' port'' : Port} (h : port.RxSame port')
    (h' : port'.RxSame port'') : port.RxSame port'' :=
  ⟨⟨h.rxFifo.contents.trans h'.rxFifo.contents, h.rxFifo.capacity.trans h'.rxFifo.capacity⟩,
    ⟨h.rxPending.contents.trans h'.rxPending.contents,
      h.rxPending.capacity.trans h'.rxPending.capacity⟩,
    ⟨h.rxQueue.contents.trans h'.rxQueue.contents, h.rxQueue.capacity.trans h'.rxQueue.capacity⟩⟩

/-- A receiving call whose modeled counterpart is an injection and another call. -/
theorem Mirrors.received (h : Mirrors d d') {c c' : Call} {portIndex : Nat} {chunk : List UInt8}
    (hc' : c'.IsModeledSide)
    (hcalls : (Event.mk d m c).modeledCalls =
      [.injectRxFrameBytes portIndex (.bytes chunk) .valid, c'])
    (hobserves : c.Observes = true) (hobserves' : c'.Observes = true)
    (hsame : SameResult (Driver.Related · Port.RxSame ·)
      ((Event.mk d m c).reply, (Event.mk d m c).after)
      ((Event.mk (d'.inject portIndex chunk) default c').reply,
        (Event.mk (d'.inject portIndex chunk) default c').after))
    (hidle : ∀ p, ((Event.mk d m c).after.ports p).rxPending.contents = []) :
    (Event.mk d m c).MirroredFrom d' := by
  have hrun : Run Call.IsModeledSide d' _ _ :=
    (Run.nil.snoc default (.injectRxFrameBytes portIndex (.bytes chunk) .valid) trivial).snoc
      default c' hc'
  refine ⟨_, _, hrun, hcalls.symm, ?_, ?_, hrun.ready h.ready', hsame.2, hidle⟩
  · rw [observed_append, List.nil_append, observed_none rfl, observed_one hobserves',
      observed_one hobserves, List.nil_append]
    exact congrArg (fun reply => [reply]) hsame.1.symm
  · exact ((@Run.nil (fun _ => True) d).snoc m c trivial).ready h.ready

theorem Mirrors.onReadHw (h : Mirrors d d') (deviceBase portIndex : Nat) (data : OutBuffer)
    (ptr : Ptr) : (Event.mk d m (.readHw (some deviceBase) portIndex data ptr)).MirroredFrom d' := by
  have hrun := readHw_injected h.ready portIndex m deviceBase data ptr
  have hinject := injectRxFrameBytes_rx h.same portIndex (.bytes
    ((Event.mk d m (.readHw (some deviceBase) portIndex data ptr)).stagedBytes portIndex)) .valid
  have hside : (Call.read portIndex data ptr).IsModeledSide := trivial
  refine h.received hside rfl rfl rfl (hrun ▸ read_rx hinject.2 portIndex data ptr) ?_
  intro p
  show ((readHw d m (some deviceBase) portIndex data ptr).2.ports p).rxPending.contents = []
  rw [readHw_port h.ready]
  split_ifs
  · rw [readFromStagedRx_pending, stageRxBytesFromHw_eq]
    exact h.idle p
  · exact h.idle p

theorem Mirrors.onPollHwPort (h : Mirrors d d') (deviceBase portIndex : Nat) :
    (Event.mk d m (.pollHwPort (some deviceBase) portIndex)).MirroredFrom d' := by
  have hpoll := pollHwPort_injected h.ready h.idle m deviceBase portIndex
  have hinject := injectRxFrameBytes_rx h.same portIndex (.bytes
    ((Event.mk d m (.pollHwPort (some deviceBase) portIndex)).stagedBytes portIndex)) .valid
  have hmodeled := pollPort_rx hinject.2 portIndex
  have hside : (Call.pollPort portIndex).IsModeledSide := trivial
  refine h.received hside rfl rfl rfl
    ⟨hpoll.1.trans hmodeled.1, fun p => (hpoll.2 p).trans (hmodeled.2 p)⟩ ?_
  intro p
  show ((pollHwPort d m (some deviceBase) portIndex).2.ports p).rxPending.contents = []
  rw [pollHwPort_port h.ready]
  split_ifs
  · rw [stageRxBytesFromHw_eq, flushTxQueueToHw_eq]
    exact h.idle p
  · exact h.idle p

/-- The level is a count of the frames in `rx_fifo`. -/
theorem fifoLevel_rx (h : d.Related Port.RxSame d') (portIndex : Nat) :
    SameResult (Driver.Related · Port.RxSame ·) (fifoLevel d portIndex)
      (fifoLevel d' portIndex) := by
  apply onPort_related h
  intro p port port' hs
  exact ⟨hs.rxFifo.frameCount, hs⟩

/-- A call that both sides make. -/
theorem Mirrors.onBoth (h : Mirrors d d') {c : Call} (hc : c.IsModeledSide)
    (hcalls : (Event.mk d m c).modeledCalls = [c])
    (hsame : SameResult (Driver.Related · Port.RxSame ·)
      ((Event.mk d m c).reply, (Event.mk d m c).after)
      ((Event.mk d' default c).reply, (Event.mk d' default c).after))
    (hidle : ∀ p, ((Event.mk d m c).after.ports p).rxPending.contents = []) :
    (Event.mk d m c).MirroredFrom d' := by
  have hrun : Run Call.IsModeledSide d' _ _ := Run.nil.snoc default c hc
  refine ⟨_, _, hrun, hcalls.symm, ?_, ?_, hrun.ready h.ready', hsame.2, hidle⟩
  · rw [List.nil_append]
    cases hobserves : c.Observes with
    | false =>
      rw [observed_none (e := ⟨d', default, c⟩) hobserves, observed_none (e := ⟨d, m, c⟩) hobserves]
    | true =>
      rw [observed_one (e := ⟨d', default, c⟩) hobserves, observed_one (e := ⟨d, m, c⟩) hobserves]
      exact congrArg (fun reply => [reply]) hsame.1.symm
  · exact ((@Run.nil (fun _ => True) d).snoc m c trivial).ready h.ready

/-- **Every call on the hardware side is mirrored.** -/
theorem Mirrors.step (h : Mirrors d d') {c : Call} (hc : c.IsHardwareSide) :
    (Event.mk d m c).MirroredFrom d' := by
  cases c with
  | readHw deviceBase portIndex data ptr =>
    cases deviceBase with
    | none => exact absurd rfl hc
    | some deviceBase => exact h.onReadHw deviceBase portIndex data ptr
  | pollHwPort deviceBase portIndex =>
    cases deviceBase with
    | none => exact absurd rfl hc
    | some deviceBase => exact h.onPollHwPort deviceBase portIndex
  | read portIndex data ptr =>
    refine h.onBoth trivial rfl (read_rx h.same portIndex data ptr) ?_
    intro p
    show ((Xr17v358.read d portIndex data ptr).2.ports p).rxPending.contents = []
    rw [read_port h.ready]
    split_ifs
    · rw [readFromStagedRx_pending]
      exact h.idle p
    · exact h.idle p
  | resetState =>
    have hfresh : ∀ d, FreshlyReset (resetState d) := fun d => ⟨d, .inl rfl⟩
    exact h.onBoth trivial rfl ⟨rfl, fun p => ((hfresh d).same (hfresh d') p).rx⟩
      fun p => ((hfresh d).contents p).2.2.1
  | reset =>
    have hfresh : ∀ d, FreshlyReset (reset d) := fun d => ⟨d, .inr rfl⟩
    exact h.onBoth trivial rfl ⟨rfl, fun p => ((hfresh d).same (hfresh d') p).rx⟩
      fun p => ((hfresh d).contents p).2.2.1
  | fifoLevel portIndex =>
    obtain ⟨hcount, hrelated⟩ := fifoLevel_rx h.same portIndex
    refine h.onBoth trivial rfl ⟨congrArg Reply.counted hcount, hrelated⟩ ?_
    intro p
    obtain ⟨config, hport⟩ := @quiet_port _ h.ready m (.fifoLevel portIndex) trivial p
    rw [hport]
    exact h.idle p
  | initializePort | getPortConfig | getUartBase | getTxFifoBase | setDiscrete | setLoopback
  | queueSize => exact h.onQuiet trivial rfl
  | write portIndex data ptr =>
    refine h.nothing rfl rfl ?_
    intro p
    rw [show (Event.mk d m (.write portIndex data ptr)).after =
      (Xr17v358.write d portIndex data ptr).2 from rfl, write_port h.ready]
    split_ifs <;> exact ⟨rfl, rfl, rfl⟩
  | writeHw deviceBase portIndex data ptr =>
    refine h.nothing rfl rfl ?_
    intro p
    show ((Xr17v358.writeHw d m deviceBase portIndex data ptr).2.ports p).rxFifo = _ ∧
      ((Xr17v358.writeHw d m deviceBase portIndex data ptr).2.ports p).rxPending = _ ∧
      ((Xr17v358.writeHw d m deviceBase portIndex data ptr).2.ports p).rxQueue = _
    cases deviceBase with
    | none =>
      rw [(writeHw_rejected h.ready portIndex p m (.inl rfl)).2]
      exact ⟨rfl, rfl, rfl⟩
    | some deviceBase =>
      rw [writeHw_port h.ready]
      split_ifs
      · exact ⟨rfl, rfl, rfl⟩
      · rw [flushTxQueueToHw_eq]
        exact ⟨rfl, rfl, rfl⟩
      · exact ⟨rfl, rfl, rfl⟩
  | _ => exact hc.elim

/-! ## Runs -/

/-- **Hardware reception refines modeled reception.** For every run on the hardware side from a
reset, whatever the device does, the modeled calls that stand for its calls return the same to the
calls that observe reception, in the same order, and leave the same in the receive rings of every
port. -/
theorem hardware_refines_modeled {start d : Driver} {es : List Event} (hstart : FreshlyReset start)
    (hrun : Run Call.IsHardwareSide start es d) :
    ∃ es' d', Run Call.IsModeledSide start es' d' ∧
      es'.map Event.call = es.flatMap Event.modeledCalls ∧ observed es' = observed es ∧
      d.Related Port.RxSame d' := by
  have hmirrors : ∃ es' d', Run Call.IsModeledSide start es' d' ∧
      es'.map Event.call = es.flatMap Event.modeledCalls ∧ observed es' = observed es ∧
      Mirrors d d' := by
    induction hrun with
    | nil =>
      exact ⟨[], start, .nil, rfl, rfl, hstart.ready, hstart.ready,
        fun p => (hstart.same hstart p).rx, fun p => (hstart.contents p).2.2.1⟩
    | @snoc es d _ m c hc ih =>
      obtain ⟨es', d', hrun', hcalls, hobserved, hmirrors⟩ := ih
      obtain ⟨es₁, d₁, hrun₁, hcalls₁, hobserved₁, hmirrors₁⟩ := hmirrors.step hc
      refine ⟨es' ++ es₁, d₁, hrun'.append hrun₁, ?_, ?_, hmirrors₁⟩
      · rw [List.map_append, List.flatMap_append, hcalls, hcalls₁, List.flatMap_singleton]
      · rw [observed_append, observed_append, hobserved, hobserved₁]
  obtain ⟨es', d', hrun', hcalls, hobserved, hmirrors⟩ := hmirrors
  exact ⟨es', d', hrun', hcalls, hobserved, hmirrors.same⟩

/-- A device with three bytes to be staged on port 0. -/
def deviceWithFrame : DeviceMemory :=
  .plain fun x => if x = regRxlvl then 3 else if x = fifoRegisterOffset + 1 then 0x41 else 0x7E

theorem hardware_refines_modeled_poll : ∃ es' d',
    Run Call.IsModeledSide (resetState .zero) es' d' ∧
      es'.map Event.call =
        [.injectRxFrameBytes 0 (.bytes [0x7E, 0x41, 0x7E]) .valid, .pollPort 0] ∧
      (observed es').length = 1 := by
  have hrun := (@Run.nil Call.IsHardwareSide (resetState .zero)).snoc deviceWithFrame
    (.pollHwPort (some 0) 0) (Option.some_ne_none 0)
  obtain ⟨es', d', hrun', hcalls, hobserved, -⟩ :=
    hardware_refines_modeled ⟨.zero, .inl rfl⟩ hrun
  refine ⟨es', d', hrun', hcalls.trans ?_, ?_⟩
  · rfl
  · rw [hobserved]
    rfl

end Xr17v358
