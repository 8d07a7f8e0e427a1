import SerialDriver.HardwareTransmit
import SerialDriver.HardwareReceive
import SerialDriver.ModeledTransmit

/-!
# An application on the hardware path

The calls an application makes that keeps its packets on the hardware path: it may configure ports
and drive the modem signals at any time, queue packets with `write` as well as `writeHw`, and read
with `read` as well as `readHw`. Left out are `pollPort`, which takes `tx_queue` to the modelled
FIFO instead, the raw accesses to the FIFO windows, and the test helpers that inject and remove
bytes. What such a call does to `tx_queue` and to the receive side of a port, whichever it is, is
`service_transmits` and `service_receives`.
-/

namespace Xr17v358

/-- The calls of an application on the hardware path. -/
def Call.IsService : Call → Prop
  | initializePort .. | getPortConfig .. | getUartBase .. | getTxFifoBase .. | write .. | read ..
  | writeHw .. | readHw .. | pollHwPort .. | setDiscrete .. | setLoopback .. | fifoLevel _
  | queueSize _ => True
  | _ => False

/-- The packet a call queues for transmission. -/
def Call.sends : Call → Option (Nat × List UInt8)
  | write portIndex data _ => some (portIndex, data.toList)
  | writeHw _ portIndex data _ => some (portIndex, data.toList)
  | _ => none

/-- The call moves no byte of a port: it concerns configurations, addresses, counters or modem
signals. -/
def Call.IsQuiet : Call → Prop
  | initializePort .. | getPortConfig .. | getUartBase .. | getTxFifoBase .. | setDiscrete ..
  | setLoopback .. | fifoLevel _ | queueSize _ => True
  | _ => False

variable {d : Driver}

/-- **A quiet call changes at most the configuration of a port.** -/
theorem quiet_port (hd : d.Ready) (m : DeviceMemory) {c : Call} (hc : c.IsQuiet) (p : PortIndex) :
    ∃ config, (Event.mk d m c).after.ports p = { d.ports p with config := config } := by
  have hsame : ∃ config, d.ports p = { d.ports p with config := config } := ⟨_, rfl⟩
  cases c with
  | initializePort portIndex config =>
    show ∃ config', (initializePort d portIndex config).2.ports p =
      { d.ports p with config := config' }
    rw [initializePort, onPort_ports, ensureStateInitialized_of_ready hd]
    dsimp only
    split_ifs
    · exact hsame
    · exact ⟨config.getD (d.ports p).config, rfl⟩
    · exact hsame
  | getPortConfig portIndex ptr =>
    show ∃ config, (getPortConfig d portIndex ptr).2.ports p = { d.ports p with config := config }
    rw [getPortConfig, onPort_ports, ensureStateInitialized_of_ready hd]
    dsimp only
    split_ifs <;> exact hsame
  | fifoLevel portIndex =>
    show ∃ config, (fifoLevel d portIndex).2.ports p = { d.ports p with config := config }
    rw [fifoLevel, onPort_ports, ensureStateInitialized_of_ready hd]
    dsimp only
    split_ifs <;> exact hsame
  | queueSize portIndex =>
    show ∃ config, (queueSize d portIndex).2.ports p = { d.ports p with config := config }
    rw [queueSize, onPort_ports, ensureStateInitialized_of_ready hd]
    dsimp only
    split_ifs <;> exact hsame
  | getUartBase | getTxFifoBase | setDiscrete | setLoopback => exact hsame
  | _ => exact hc.elim

/-! ## Transmitting -/

/-- What a call accepted is queued behind what was there, and what it emitted left at the front. -/
structure Event.Transmits (p : PortIndex) (e : Event) : Prop where
  valid : ∀ x ∈ accepted Call.sends p [e], ValidPayload x
  conserved : e.emitted p ++ (e.after.ports p).txQueue.contents =
    (e.before.ports p).txQueue.contents ++ (accepted Call.sends p [e]).flatMap encode

/-- A call that submits nothing and leaves `tx_queue` of the port alone. -/
theorem Event.Transmits.nothing {e : Event} {p : PortIndex} (hsends : e.call.sends = none)
    (hflushes : e.call.flushes = none)
    (hqueue : (e.after.ports p).txQueue = (e.before.ports p).txQueue) : e.Transmits p := by
  have hacc : accepted Call.sends p [e] = [] := accepted_other hsends p
  have hemitted : e.emitted p = [] := by rw [Event.emitted, hflushes]
  exact ⟨by simp [hacc], by rw [hacc, hemitted, hqueue]; simp⟩

theorem write_transmits (hd : d.Ready) (m : DeviceMemory) (p : PortIndex) (portIndex : Nat)
    (data : InBuffer) (ptr : Ptr) : (Event.mk d m (.write portIndex data ptr)).Transmits p := by
  obtain ⟨-, hvalid, hqueue⟩ := enqueuePacket_packet p (d.ports p).txQueue data
  have hacc : accepted Call.sends p [⟨d, m, .write portIndex data ptr⟩] = _ :=
    accepted_write hd m portIndex p data ptr
  have hport := write_port hd portIndex p data ptr
  have hemitted : (Event.mk d m (.write portIndex data ptr)).emitted p = [] := rfl
  refine ⟨?_, ?_⟩
  · rw [hacc]
    split_ifs
    · exact hvalid
    · simp
  · rw [hemitted, hacc]
    show [] ++ ((write d portIndex data ptr).2.ports p).txQueue.contents = _
    rw [hport, List.nil_append]
    split_ifs
    · exact hqueue
    · simp

theorem read_txQueue (portIndex : Nat) (port : Port) (length : Nat) :
    (readFromStagedRx portIndex port length).2.txQueue = port.txQueue := by
  obtain ⟨_, _, _, _, -, hrun, -⟩ := readFromStagedRx_spec portIndex port length
  rw [hrun]

/-- **What one call transmits.** -/
theorem service_transmits (hd : d.Ready) (m : DeviceMemory) {c : Call} (hc : c.IsService)
    (p : PortIndex) : (Event.mk d m c).Transmits p := by
  have hquiet : c.IsQuiet → ((Event.mk d m c).after.ports p).txQueue = (d.ports p).txQueue := by
    intro hquiet
    obtain ⟨config, hport⟩ := quiet_port hd m hquiet p
    rw [hport]
  cases c with
  | write portIndex data ptr => exact write_transmits hd m p portIndex data ptr
  | writeHw device portIndex data ptr =>
    obtain ⟨hvalid, hconserved, -⟩ := writeHw_step hd m p device portIndex data ptr
    exact ⟨hvalid, hconserved⟩
  | pollHwPort device portIndex =>
    obtain ⟨hvalid, hconserved, -⟩ := pollHwPort_step hd m p device portIndex
    exact ⟨hvalid, hconserved⟩
  | read portIndex data ptr =>
    refine .nothing rfl rfl ?_
    show ((read d portIndex data ptr).2.ports p).txQueue = _
    rw [read_port hd]
    split_ifs
    · exact read_txQueue ..
    · rfl
  | readHw device portIndex data ptr =>
    refine .nothing rfl rfl ?_
    show ((readHw d m device portIndex data ptr).2.ports p).txQueue = _
    cases device with
    | none => rw [(readHw_rejected hd portIndex p m (.inl rfl)).2]
    | some deviceBase =>
      obtain ⟨rxFifo, m', hstage, -⟩ := stageRxBytesFromHw_spec m deviceBase p (d.ports p)
      rw [readHw_port hd, hstage]
      split_ifs
      · exact read_txQueue ..
      · rfl
  | initializePort | getPortConfig | getUartBase | getTxFifoBase | setDiscrete | setLoopback
  | fifoLevel | queueSize => exact .nothing rfl rfl (hquiet trivial)
  | _ => exact hc.elim

/-! ## Receiving -/

theorem stagedStream_snoc (p : PortIndex) (es : List Event) (e : Event) :
    stagedStream p (es ++ [e]) = stagedStream p es ++ e.staged p := by
  rw [stagedStream, List.flatMap_append, List.flatMap_singleton]
  rfl

/-- **What the decoding loop of a call finds**: what the call has staged behind what was there. -/
theorem Event.decodes_spec {e : Event} {p : PortIndex} {port : Port} (h : port ∈ e.decodes p) :
    port.rxFifo.contents = (e.before.ports p).rxFifo.contents ++ e.staged p ∧
      port.rxQueue = (e.before.ports p).rxQueue ∧ e.call.flushes = none := by
  obtain ⟨d, m, c⟩ := e
  cases c with
  | read portIndex data ptr =>
    change port ∈ (if _ then _ else _) at h
    split_ifs at h
    · obtain rfl := Option.some.inj h
      exact ⟨(List.append_nil _).symm, rfl, rfl⟩
    · exact absurd h (Option.not_mem_none port)
  | readHw device portIndex data ptr =>
    cases device with
    | none => exact absurd h (Option.not_mem_none port)
    | some deviceBase =>
      obtain ⟨rxFifo, m', hstage, -, -, hcontents⟩ :=
        stageRxBytesFromHw_spec m deviceBase p (d.ports p)
      change port ∈ (if portIndex = p ∧ ¬ (ptr = .null ∨ data.missing) then
        some (stageRxBytesFromHw m deviceBase p (d.ports p)).2.1 else none) at h
      split_ifs at h with hargs
      · obtain rfl := Option.some.inj h
        have hstaged : (Event.mk d m (.readHw (some deviceBase) portIndex data ptr)).staged p =
            peekWindow m deviceBase p (stageCount m deviceBase p (d.ports p)) := if_pos hargs
        rw [hstaged, hstage]
        exact ⟨hcontents, rfl, rfl⟩
      · exact absurd h (Option.not_mem_none port)
  | _ => exact absurd h (Option.not_mem_none port)

/-- A call that stages nothing, returns nothing and leaves the receive side of the port alone. -/
theorem Port.Received.other {stream ret : List UInt8} {e : Event} {p : PortIndex}
    (h : (e.before.ports p).Received stream ret) (hstaged : e.staged p = [])
    (htakes : e.call.takes = none)
    (hfifo : (e.after.ports p).rxFifo = (e.before.ports p).rxFifo)
    (hqueue : (e.after.ports p).rxQueue = (e.before.ports p).rxQueue) :
    (e.after.ports p).Received (stream ++ e.staged p)
      (ret ++ returned Call.takes p [e]) := by
  rw [hstaged, returned_other htakes, List.append_nil, List.append_nil]
  obtain ⟨os, hsteps, hpayloads⟩ := h
  exact ⟨os, hfifo ▸ hsteps, hqueue ▸ hpayloads⟩

theorem writeHw_receiveSide (hd : d.Ready) (m : DeviceMemory) (p : PortIndex)
    (device : Option Nat) (portIndex : Nat) (data : InBuffer) (ptr : Ptr) :
    ((writeHw d m device portIndex data ptr).2.ports p).rxFifo = (d.ports p).rxFifo ∧
      ((writeHw d m device portIndex data ptr).2.ports p).rxQueue = (d.ports p).rxQueue := by
  cases device with
  | none => rw [(writeHw_rejected hd portIndex p m (.inl rfl)).2]; exact ⟨rfl, rfl⟩
  | some deviceBase =>
    obtain ⟨txQueue, m', hflush, -⟩ := flushTxQueueToHw_spec m deviceBase p
      { d.ports p with txQueue := (enqueuePacket p (d.ports p).txQueue data).2.2 }
    rw [writeHw_port hd, hflush]
    split_ifs <;> exact ⟨rfl, rfl⟩

/-- **What one call receives.** -/
theorem service_receives (hd : d.Ready) (m : DeviceMemory) {c : Call} (hc : c.IsService)
    {p : PortIndex} {stream ret : List UInt8} (h : (d.ports p).Received stream ret)
    (hroomy : (Event.mk d m c).Roomy p) :
    ((Event.mk d m c).after.ports p).Received (stream ++ (Event.mk d m c).staged p)
      (ret ++ returned Call.takes p [⟨d, m, c⟩]) := by
  have hquiet : c.IsQuiet →
      ((Event.mk d m c).after.ports p).rxFifo = (d.ports p).rxFifo ∧
      ((Event.mk d m c).after.ports p).rxQueue = (d.ports p).rxQueue := by
    intro hquiet
    obtain ⟨config, hport⟩ := quiet_port hd m hquiet p
    rw [hport]
    exact ⟨rfl, rfl⟩
  cases c with
  | pollHwPort device portIndex =>
    exact received_step (c := .pollHwPort device portIndex) hd m trivial h hroomy
  | readHw device portIndex data ptr =>
    exact received_step (c := .readHw device portIndex data ptr) hd m trivial h hroomy
  | read portIndex data ptr =>
    exact received_step (c := .read portIndex data ptr) hd m trivial h hroomy
  | write portIndex data ptr =>
    have hport := write_port hd portIndex p data ptr
    refine Port.Received.other h rfl rfl ?_ ?_
    · show ((write d portIndex data ptr).2.ports p).rxFifo = _
      rw [hport]
      split_ifs <;> rfl
    · show ((write d portIndex data ptr).2.ports p).rxQueue = _
      rw [hport]
      split_ifs <;> rfl
  | writeHw device portIndex data ptr =>
    obtain ⟨hfifo, hqueue⟩ := writeHw_receiveSide hd m p device portIndex data ptr
    exact Port.Received.other h rfl rfl hfifo hqueue
  | initializePort | getPortConfig | getUartBase | getTxFifoBase | setDiscrete | setLoopback
  | fifoLevel | queueSize =>
    exact Port.Received.other h rfl rfl (hquiet trivial).1 (hquiet trivial).2
  | _ => exact hc.elim

/-- What was returned, what is decoded and what can be decoded is what the stream delivers. -/
theorem Port.Received.balance {port : Port} {stream got : List UInt8}
    (h : port.Received stream got) :
    got ++ port.rxQueue.contents ++ delivered port.rxFifo.contents = delivered stream := by
  obtain ⟨os, hsteps, hpayloads⟩ := h
  obtain ⟨front, rfl, hscan⟩ := scan_steps hsteps
  rw [hpayloads, delivered, delivered, scan_append, hscan]

/-- Encodings that have arrived whole are delivered. -/
theorem flatten_prefix_delivered {stream : List UInt8} {ds : List (List UInt8)}
    (hds : ∀ d ∈ ds, ValidPayload d) (h : ds.flatMap encode <+: stream) :
    ds.flatten <+: delivered stream := by
  obtain ⟨rest, rfl⟩ := h
  rw [delivered, scan_append, scan_encodings hds]
  exact List.prefix_append ..

/-! ## The modelled FIFOs -/

/-- The rings of a port that only the modelled paths use. -/
def Port.modeled (port : Port) : Ring × Ring := (port.txFifo, port.rxPending)

variable {start : Driver} {es : List Event}

/-- **What an application transmits**, whatever else it does in between. -/
theorem transmits_of_run (hstart : FreshlyReset start) (hrun : Run Call.IsService start es d)
    (p : PortIndex) :
    (∀ x ∈ accepted Call.sends p es, ValidPayload x) ∧
      es.flatMap (Event.emitted p) ++ (d.ports p).txQueue.contents =
        (accepted Call.sends p es).flatMap encode := by
  induction hrun with
  | nil =>
    obtain ⟨-, -, -, hqueue, -⟩ := hstart.contents p
    exact ⟨by simp [accepted], by simp [accepted, hqueue]⟩
  | @snoc es d hprev m c hc ih =>
    obtain ⟨hvalid, hconserved⟩ := ih
    have hstep := service_transmits (hprev.ready hstart.ready) m hc p
    rw [accepted_snoc]
    refine ⟨List.forall_mem_append.2 ⟨hvalid, hstep.valid⟩, ?_⟩
    rw [List.flatMap_append, List.flatMap_singleton, List.append_assoc, hstep.conserved,
      ← List.append_assoc, hconserved, List.flatMap_append]

/-- **What an application receives**, as long as `rx_queue` has room. -/
theorem receives_of_run (hstart : FreshlyReset start) (hrun : Run Call.IsService start es d)
    (p : PortIndex) (hroomy : ∀ e ∈ es, e.Roomy p) :
    (d.ports p).Received (stagedStream p es) (returned Call.takes p es) := by
  induction hrun with
  | nil =>
    obtain ⟨-, hfifo, -, -, hqueue⟩ := hstart.contents p
    exact ⟨[], by rw [hfifo]; exact .refl [], by rw [hqueue]; rfl⟩
  | @snoc es d hprev m c hc ih =>
    have hinv := ih fun e he => hroomy e (List.mem_append_left _ he)
    rw [returned_snoc, stagedStream_snoc]
    exact service_receives (hprev.ready hstart.ready) m hc hinv
      (hroomy _ (List.mem_append_right _ (List.mem_singleton_self _)))

end Xr17v358
