import SerialDriver.LineScan
import SerialDriver.PortEffects

/-!
# Hardware reception does not depend on chunking

`pollHwPort` and `readHw` stage what the level register and the free room allow, and reads decode
what happens to be buffered. `Received` is the invariant: the receive path has taken items off the
stream staged so far, what is left of the stream is in `rx_fifo`, and the payloads among the items
are what was returned and what `rx_queue` holds. Since a run of the receive path is determined by
the stream (`Incremental.Steps.unique`), two schedules that stage the same stream agree once no
complete frame is left (`hardwareReceive_chunking`).
-/

namespace Xr17v358

open Incremental

/-- The calls of the hardware receive path. -/
def Call.IsHardwareReceive : Call → Prop
  | pollHwPort .. | readHw .. | read .. => True
  | _ => False

/-! ## What a call stages and decodes -/

/-- The bytes a call appends to `rx_fifo` of a port: the front of its FIFO window, as many as there
is room for and as both reads of the level register allow. -/
def Event.staged (p : PortIndex) (e : Event) : List UInt8 :=
  match e.call with
  | .pollHwPort (some deviceBase) portIndex =>
    if portIndex = p then
      let m := (flushTxQueueToHw e.memory deviceBase p (e.before.ports p)).2.2
      peekWindow m deviceBase p (stageCount m deviceBase p (e.before.ports p))
    else []
  | .readHw (some deviceBase) portIndex data ptr =>
    if portIndex = p ∧ ¬ (ptr = .null ∨ data.missing) then
      peekWindow e.memory deviceBase p (stageCount e.memory deviceBase p (e.before.ports p))
    else []
  | _ => []

def stagedStream (p : PortIndex) (es : List Event) : List UInt8 := es.flatMap (Event.staged p)

/-- The port as the decoding loop of a call finds it. -/
def Event.decodes (p : PortIndex) (e : Event) : Option Port :=
  match e.call with
  | .read portIndex data ptr =>
    if portIndex = p ∧ ¬ (ptr = .null ∨ data.missing) then some (e.before.ports p) else none
  | .readHw (some deviceBase) portIndex data ptr =>
    if portIndex = p ∧ ¬ (ptr = .null ∨ data.missing) then
      some (stageRxBytesFromHw e.memory deviceBase p (e.before.ports p)).2.1
    else none
  | _ => none

/-- Every payload that the call decodes fits `rx_queue`. -/
def Event.Roomy (p : PortIndex) (e : Event) : Prop :=
  ∀ port ∈ e.decodes p, NeverShort port.rxFifo.contents port.rxQueue.room

/-! ## The invariant -/

/-- Off the `stream` staged so far the receive path has taken items, whose payloads were
`returned` or are in `rx_queue`. -/
def Port.Received (port : Port) (stream returned : List UInt8) : Prop :=
  ∃ os, Steps receiver stream os port.rxFifo.contents ∧
    returned ++ port.rxQueue.contents = os.reduceOption.flatten

variable {port : Port} {stream ret : List UInt8}

theorem Port.Received.stage (h : port.Received stream ret) {port' : Port} {chunk : List UInt8}
    (hfifo : port'.rxFifo.contents = port.rxFifo.contents ++ chunk)
    (hqueue : port'.rxQueue = port.rxQueue) : port'.Received (stream ++ chunk) ret := by
  obtain ⟨os, hsteps, hpayloads⟩ := h
  refine ⟨os, ?_, hqueue ▸ hpayloads⟩
  rw [hfifo]
  exact hsteps.append chunk

theorem Port.Received.read (h : port.Received stream ret)
    (hfit : NeverShort port.rxFifo.contents port.rxQueue.room) (portIndex length : Nat) :
    (readFromStagedRx portIndex port length).2.Received stream
      (ret ++ (readFromStagedRx portIndex port length).1.data) := by
  obtain ⟨os, hsteps, hpayloads⟩ := h
  obtain ⟨e, queue, rxFifo, rxQueue, hpass, hrun, -, -, hdata⟩ :=
    readFromStagedRx_spec portIndex port length
  obtain ⟨os', hsteps', rfl⟩ := hpass.taken hfit
  rw [hrun]
  refine ⟨os ++ os', hsteps.trans hsteps', ?_⟩
  rw [List.append_assoc, hdata, ← List.append_assoc, hpayloads, List.reduceOption_append,
    List.flatten_append]

/-- **One call.** -/
theorem received_step {d : Driver} (hd : d.Ready) (m : DeviceMemory) {c : Call}
    (hc : c.IsHardwareReceive) {p : PortIndex} (h : (d.ports p).Received stream ret)
    (hroomy : (Event.mk d m c).Roomy p) :
    ((Event.mk d m c).after.ports p).Received (stream ++ (Event.mk d m c).staged p)
      (ret ++ returned Call.takes p [⟨d, m, c⟩]) := by
  cases c with
  | pollHwPort deviceBase portIndex =>
    rw [returned_other rfl, List.append_nil]
    show ((pollHwPort d m deviceBase portIndex).2.ports p).Received _ ret
    cases deviceBase with
    | none =>
      rw [pollHwPort_rejected hd]
      exact h.stage (List.append_nil _).symm rfl
    | some deviceBase =>
      obtain ⟨txQueue, m', hflush, -⟩ := flushTxQueueToHw_spec m deviceBase p (d.ports p)
      obtain ⟨rxFifo, m'', hstage, -, -, hcontents⟩ :=
        stageRxBytesFromHw_spec m' deviceBase p { d.ports p with txQueue := txQueue }
      rw [pollHwPort_port hd, hflush, hstage, Event.staged]
      simp only [hflush]
      split_ifs
      · exact h.stage hcontents rfl
      · exact h.stage (List.append_nil _).symm rfl
  | read portIndex data ptr =>
    rw [returned_read hd portIndex p m rfl]
    show ((Xr17v358.read d portIndex data ptr).2.ports p).Received (stream ++ []) _
    rw [read_port hd, List.append_nil]
    rw [Event.Roomy, Event.decodes] at hroomy
    dsimp only at hroomy
    split_ifs at hroomy ⊢ with hargs
    · exact h.read (hroomy _ rfl) p data.length
    · rw [List.append_nil]
      exact h
  | readHw deviceBase portIndex data ptr =>
    show ((readHw d m deviceBase portIndex data ptr).2.ports p).Received _ _
    cases deviceBase with
    | none =>
      rw [(readHw_rejected hd portIndex p m (.inl rfl)).2, returned_readHw_none hd portIndex p m rfl,
        List.append_nil]
      exact h.stage (List.append_nil _).symm rfl
    | some deviceBase =>
      obtain ⟨rxFifo, m', hstage, -, -, hcontents⟩ :=
        stageRxBytesFromHw_spec m deviceBase p (d.ports p)
      rw [returned_readHw hd portIndex p m rfl, readHw_port hd, Event.staged]
      rw [Event.Roomy, Event.decodes] at hroomy
      dsimp only at hroomy ⊢
      split_ifs at hroomy ⊢ with hargs
      · have hstaged : (stageRxBytesFromHw m deviceBase p (d.ports p)).2.1.Received _ ret :=
          h.stage (by rw [hstage]; exact hcontents) (by rw [hstage])
        exact hstaged.read (hroomy _ rfl) p data.length
      · rw [List.append_nil, List.append_nil]
        exact h
  | _ => exact hc.elim

theorem received_run {start d : Driver} {es : List Event} {p : PortIndex} (hstart : start.Ready)
    (hrun : Run Call.IsHardwareReceive start es d) (hroomy : ∀ e ∈ es, e.Roomy p)
    (hempty : (start.ports p).rxFifo.contents = [] ∧ (start.ports p).rxQueue.contents = []) :
    (d.ports p).Received (stagedStream p es) (returned Call.takes p es) := by
  induction hrun with
  | nil => exact ⟨[], by rw [hempty.1]; exact .refl [], by rw [hempty.2]; rfl⟩
  | @snoc es d hprev m c hc ih =>
    have hinv := ih fun e he => hroomy e (List.mem_append_left _ he)
    rw [returned_snoc, stagedStream, List.flatMap_append, List.flatMap_singleton]
    exact received_step (hprev.ready hstart) m hc hinv
      (hroomy _ (List.mem_append_right _ (List.mem_singleton_self _)))

/-! ## Two schedules -/

/-- A run of the hardware receive path from empty receive buffers of a port, in which every decoded
payload fits, until reads have left no complete frame. -/
structure Schedule (p : PortIndex) (start : Driver) (es : List Event) (d : Driver) : Prop where
  ready : start.Ready
  empty : (start.ports p).rxFifo.contents = [] ∧ (start.ports p).rxQueue.contents = []
  run : Run Call.IsHardwareReceive start es d
  roomy : ∀ e ∈ es, e.Roomy p
  finished : (d.ports p).rxFifo.contents.count frameDelimiter < 2

/-- A finished schedule has taken the items of an exhaustive run over its stream. -/
theorem Schedule.items {p : PortIndex} {start d : Driver} {es : List Event}
    (h : Schedule p start es d) {os : List (Option (List UInt8))} {rest : List UInt8}
    (hsteps : Steps receiver (stagedStream p es) os rest) (hstuck : receiver.step rest = none) :
    returned Call.takes p es ++ (d.ports p).rxQueue.contents = os.reduceOption.flatten ∧
      (d.ports p).rxFifo.contents = rest := by
  obtain ⟨os', hsteps', hpayloads⟩ := received_run h.ready h.run h.roomy h.empty
  obtain ⟨rfl, hrest⟩ := hsteps'.unique (step_eq_none_iff.2 h.finished) hsteps hstuck
  exact ⟨hpayloads, hrest⟩

/-- **Hardware reception does not depend on chunking.** Two schedules that stage the same stream
return and keep the same bytes, and encodings come out as their payloads. -/
theorem hardwareReceive_chunking {p : PortIndex} {start start' d d' : Driver}
    {es es' : List Event} (h : Schedule p start es d) (h' : Schedule p start' es' d')
    (hstream : stagedStream p es = stagedStream p es') :
    (returned Call.takes p es ++ (d.ports p).rxQueue.contents =
        returned Call.takes p es' ++ (d'.ports p).rxQueue.contents ∧
      (d.ports p).rxFifo.contents = (d'.ports p).rxFifo.contents) ∧
    ∀ ds : List (List UInt8), (∀ x ∈ ds, ValidPayload x) →
      stagedStream p es = ds.flatMap encode →
      returned Call.takes p es ++ (d.ports p).rxQueue.contents = ds.flatten ∧
        (d.ports p).rxFifo.contents = [] := by
  obtain ⟨os, hsteps, hpayloads⟩ := received_run h.ready h.run h.roomy h.empty
  have hstuck := step_eq_none_iff.2 h.finished
  obtain ⟨hreturned', hfifo'⟩ := h'.items (hstream ▸ hsteps) hstuck
  refine ⟨⟨hpayloads.trans hreturned'.symm, hfifo'.symm⟩, ?_⟩
  intro ds hds hencoded
  have hwhole := steps_encodings hds []
  rw [List.append_nil, ← hencoded] at hwhole
  have hitems := h.items hwhole step_nil
  rwa [reduceOption_map_some] at hitems

/-- A device whose port 0 reports these bytes, and has them at the front of its FIFO window. -/
def deviceHolding (bytes : List UInt8) : DeviceMemory where
  mem addr :=
    if addr = registerAddress 0 0 regRxlvl then UInt8.ofNat bytes.length
    else if addr < fifoAddress 0 0 then 0
    else bytes.getD (addr - fifoAddress 0 0) 0
  upcoming _ := []

theorem hardwareReceive_chunking_split : ∃ es es' d d',
    Schedule 0 (resetState .zero) es d ∧ Schedule 0 (resetState .zero) es' d' ∧
      stagedStream 0 es = [0x7E, 1, 0x7E] ∧ stagedStream 0 es' = [0x7E, 1, 0x7E] ∧
      (returned Call.takes 0 es ++ (d.ports 0).rxQueue.contents =
          returned Call.takes 0 es' ++ (d'.ports 0).rxQueue.contents) ∧
      returned Call.takes 0 es ++ (d.ports 0).rxQueue.contents = [1] := by
  have hready : (resetState .zero).Ready := ready_resetState _
  have hroomy : ∀ es : List Event, (∀ e ∈ es, ∀ port ∈ e.decodes 0,
      port.rxFifo.contents.length ≤ port.rxQueue.room) → ∀ e ∈ es, e.Roomy 0 :=
    fun es h e he port hport => neverShort_of_length_le (h e he port hport)
  have hwhole : Run Call.IsHardwareReceive (resetState .zero) _ _ :=
    (Run.nil.snoc (deviceHolding [0x7E, 1, 0x7E]) (.pollHwPort (some 0) 0) trivial).snoc
      default (.read 0 ⟨.valid, 1⟩ .valid) trivial
  have hsplit : Run Call.IsHardwareReceive (resetState .zero) _ _ :=
    (Run.nil.snoc (deviceHolding [0x7E]) (.readHw (some 0) 0 ⟨.valid, 1⟩ .valid) trivial).snoc
      (deviceHolding [1, 0x7E]) (.readHw (some 0) 0 ⟨.valid, 1⟩ .valid) trivial
  have h : Schedule 0 (resetState .zero) _ _ :=
    ⟨hready, ⟨rfl, rfl⟩, hwhole, hroomy _ (by decide +kernel), by decide +kernel⟩
  have h' : Schedule 0 (resetState .zero) _ _ :=
    ⟨hready, ⟨rfl, rfl⟩, hsplit, hroomy _ (by decide +kernel), by decide +kernel⟩
  obtain ⟨hsame, hencoded⟩ := hardwareReceive_chunking h h' (by decide +kernel)
  exact ⟨_, _, _, _, h, h', by decide +kernel, by decide +kernel, hsame.1,
    (hencoded [[1]] (by decide) (by decide +kernel)).1⟩

end Xr17v358
