import SerialDriver.PortEffects

/-!
# The hardware transmit path emits the accepted frames

`writeHw` adds whole encodings to `tx_queue`, and each flush moves a prefix of it to the port's
FIFO window, as much as the level register allows. So what the flushes stored, followed by what is
still queued, is always the concatenation of the accepted encodings (`hardwareTransmit_conserves`).
-/

namespace Xr17v358

/-- The calls of the hardware transmit path. -/
def Call.IsHardwareTransmit : Call → Prop
  | writeHw .. | pollHwPort .. => True
  | _ => False

/-- The packet a `writeHw` submits. -/
def Call.writtenHw : Call → Option (Nat × List UInt8)
  | writeHw _ portIndex data _ => some (portIndex, data.toList)
  | _ => none

/-- The device and the port index that a call flushes. -/
def Call.flushes : Call → Option (Nat × Nat)
  | writeHw (some deviceBase) portIndex .. => some (deviceBase, portIndex)
  | pollHwPort (some deviceBase) portIndex => some (deviceBase, portIndex)
  | _ => none

/-- The bytes in `tx_queue` when the call comes to its flush. -/
def Event.queued (p : PortIndex) (e : Event) : Nat :=
  (e.before.ports p).txQueue.size + ((accepted Call.writtenHw p [e]).flatMap encode).length

/-- The bytes the flush of a call stored at the start of the port's FIFO window, as many as
`tx_queue` lost. -/
def Event.emitted (p : PortIndex) (e : Event) : List UInt8 :=
  match e.call.flushes with
  | some (deviceBase, portIndex) =>
    if portIndex = p then
      window e.memoryAfter deviceBase p (e.queued p - (e.after.ports p).txQueue.size)
    else []
  | none => []

/-- A call on the port with valid arguments succeeds, takes its packet whole or not at all, and
flushes what is queued up to the level read. -/
structure Event.FlushesExactly (p : PortIndex) (e : Event) : Prop where
  write : ∀ deviceBase data, e.call = .writeHw (some deviceBase) p data .valid → ¬ data.missing →
    e.reply.status = .ok ∧
      (e.reply.count = some data.toList.length ∨ e.reply.count = some 0) ∧
      (accepted Call.writtenHw p [e] ≠ [] →
        (e.emitted p).length = min (e.queued p) (peekLevel e.memory deviceBase p regTxlvl))
  poll : ∀ deviceBase, e.call = .pollHwPort (some deviceBase) p →
    (e.reply.status = .messageNotReady ∨ e.reply.status = .messageReady) ∧
      (e.emitted p).length = min (e.queued p) (peekLevel e.memory deviceBase p regTxlvl)

theorem window_congr {m m' : DeviceMemory} (h : m.mem = m'.mem) (deviceBase : Nat) (p : PortIndex)
    (count : Nat) : window m deviceBase p count = window m' deviceBase p count := by
  rw [window, h]
  rfl

@[simp] theorem length_window (m : DeviceMemory) (deviceBase : Nat) (p : PortIndex)
    (count : Nat) : (window m deviceBase p count).length = count := by
  simp [window]

/-- One flush: the window holds what the queue lost. -/
theorem flush_emits (m : DeviceMemory) (deviceBase : Nat) (p : PortIndex) (port : Port) :
    (flushTxQueueToHw m deviceBase p port).1 = .ok ∧
    window (flushTxQueueToHw m deviceBase p port).2.2 deviceBase p
        (port.txQueue.size - (flushTxQueueToHw m deviceBase p port).2.1.txQueue.size) ++
      (flushTxQueueToHw m deviceBase p port).2.1.txQueue.contents = port.txQueue.contents ∧
    port.txQueue.size - (flushTxQueueToHw m deviceBase p port).2.1.txQueue.size =
      min port.txQueue.size (peekLevel m deviceBase p regTxlvl) := by
  obtain ⟨txQueue, m', hrun, -, hqueue, rfl⟩ := flushTxQueueToHw_spec m deviceBase p port
  have hle : flushCount m deviceBase p port ≤ port.txQueue.contents.length := min_le_left ..
  have hdrop : port.txQueue.contents.length - txQueue.contents.length =
      flushCount m deviceBase p port := by
    rw [hqueue, List.length_drop]
    omega
  rw [hrun]
  simp only [Ring.size_eq, hdrop]
  refine ⟨trivial, ?_, rfl⟩
  have hwindow := DeviceMemory.map_mem_store
    (m.read8 (registerAddress deviceBase p regTxlvl)).2 (fifoAddress deviceBase p)
    (port.txQueue.contents.take (flushCount m deviceBase p port))
  rw [length_flushed] at hwindow
  rw [window, hwindow, hqueue, List.take_append_drop]

/-! ## One call -/

variable {d : Driver}

theorem writeHw_emits (hd : d.Ready) (m : DeviceMemory) (deviceBase : Nat) (p : PortIndex)
    (data : InBuffer) {ptr : Ptr} (hargs : ¬ (ptr = .null ∨ data.missing)) (e : Event)
    (he : e = ⟨d, m, .writeHw (some deviceBase) p data ptr⟩) :
    (e.reply.status = .ok ∧
        (e.reply.count = some data.toList.length ∨ e.reply.count = some 0)) ∧
      (∀ x ∈ accepted Call.writtenHw p [e], ValidPayload x) ∧
      e.emitted p ++ (e.after.ports p).txQueue.contents =
        (d.ports p).txQueue.contents ++ (accepted Call.writtenHw p [e]).flatMap encode ∧
      (accepted Call.writtenHw p [e] ≠ [] →
        (e.emitted p).length = min (e.queued p) (peekLevel m deviceBase p regTxlvl)) := by
  subst he
  obtain ⟨-, hvalid, hqueue⟩ := enqueuePacket_packet p (d.ports p).txQueue data
  have hport := writeHw_port hd p p m deviceBase data ptr
  have hreply := writeHw_reply hd p m deviceBase data hargs
  rw [if_pos ⟨rfl, hargs⟩] at hport
  have hacc : accepted Call.writtenHw p [⟨d, m, .writeHw (some deviceBase) p data ptr⟩] =
      packetOf data.toList (some (enqueuePacket p (d.ports p).txQueue data).2.1) := by
    rw [accepted_event rfl, if_pos rfl]
    exact congrArg (packetOf data.toList) (congrArg (fun out => Reply.count out.1) hreply)
  have hqueued : (Event.mk d m (.writeHw (some deviceBase) p data ptr)).queued p =
      (enqueuePacket p (d.ports p).txQueue data).2.2.size := by
    rw [Event.queued, hacc, Ring.size_eq, Ring.size_eq, hqueue, List.length_append]
  have hemitted : (Event.mk d m (.writeHw (some deviceBase) p data ptr)).emitted p =
      window (writeHw d m (some deviceBase) p data ptr).1.2 deviceBase p
        ((enqueuePacket p (d.ports p).txQueue data).2.2.size -
          ((writeHw d m (some deviceBase) p data ptr).2.ports p).txQueue.size) := by
    rw [← hqueued]
    exact if_pos rfl
  have hcount := congrArg (fun out => Reply.count out.1) hreply
  refine ⟨⟨congrArg (fun out => Reply.status out.1) hreply, ?_⟩, by rwa [hacc], ?_⟩
  · rcases enqueuePacket_spec p (d.ports p).txQueue data with ⟨-, -, _, hrun, -⟩ | ⟨-, hrun⟩
    · exact .inl (hcount.trans (by rw [hrun]; rfl))
    · exact .inr (hcount.trans (by rw [hrun]; rfl))
  rw [hemitted, hqueued, hacc, ← hqueue]
  show _ ++ ((writeHw d m (some deviceBase) p data ptr).2.ports p).txQueue.contents = _ ∧ _
  rw [hport, hreply]
  by_cases hzero : (enqueuePacket p (d.ports p).txQueue data).2.1 = 0
  · simp only [if_pos hzero, Nat.sub_self]
    refine ⟨rfl, ?_⟩
    intro hne
    rw [hzero, packetOf_zero] at hne
    exact absurd rfl hne
  · simp only [if_neg hzero]
    obtain ⟨-, hflush, hcount⟩ := flush_emits m deviceBase p
      { d.ports p with txQueue := (enqueuePacket p (d.ports p).txQueue data).2.2 }
    exact ⟨hflush, fun _ => by rw [length_window]; exact hcount⟩

theorem pollHwPort_emits (hd : d.Ready) (m : DeviceMemory) (deviceBase : Nat) (p : PortIndex)
    (e : Event) (he : e = ⟨d, m, .pollHwPort (some deviceBase) p⟩) :
    (e.reply.status = .messageNotReady ∨ e.reply.status = .messageReady) ∧
      e.emitted p ++ (e.after.ports p).txQueue.contents = (d.ports p).txQueue.contents ∧
      (e.emitted p).length = min (e.queued p) (peekLevel m deviceBase p regTxlvl) := by
  subst he
  have hport := pollHwPort_port hd p p m deviceBase
  have hreply := pollHwPort_reply hd p m deviceBase
  rw [if_pos rfl] at hport
  obtain ⟨-, hflush, hcount⟩ := flush_emits m deviceBase p (d.ports p)
  obtain ⟨rxFifo, m', hstage, hmem, -⟩ := stageRxBytesFromHw_spec
    (flushTxQueueToHw m deviceBase p (d.ports p)).2.2 deviceBase p
    (flushTxQueueToHw m deviceBase p (d.ports p)).2.1
  rw [hstage] at hport hreply
  have hqueued : (Event.mk d m (.pollHwPort (some deviceBase) p)).queued p =
      (d.ports p).txQueue.size := by
    rw [Event.queued, accepted_other rfl]
    rfl
  have hemitted : (Event.mk d m (.pollHwPort (some deviceBase) p)).emitted p =
      window (pollHwPort d m (some deviceBase) p).1.2 deviceBase p
        ((d.ports p).txQueue.size -
          ((pollHwPort d m (some deviceBase) p).2.ports p).txQueue.size) := by
    rw [← hqueued]
    exact if_pos rfl
  refine ⟨?_, ?_, ?_⟩
  · show (pollHwPort d m (some deviceBase) p).1.1.status = _ ∨
      (pollHwPort d m (some deviceBase) p).1.1.status = _
    rw [hreply]
    split_ifs
    · exact .inr rfl
    · exact .inl rfl
  · rw [hemitted, hreply, window_congr hmem]
    show _ ++ ((pollHwPort d m (some deviceBase) p).2.ports p).txQueue.contents = _
    rw [hport]
    exact hflush
  · rw [hemitted, length_window, hqueued, hport]
    exact hcount

/-- A call that leaves `tx_queue` of the port alone and submits nothing to it. -/
theorem emits_nothing {e : Event} {p : PortIndex}
    (hacc : accepted Call.writtenHw p [e] = [])
    (hqueue : (e.after.ports p).txQueue = (e.before.ports p).txQueue) : e.emitted p = [] := by
  unfold Event.emitted
  split
  · split_ifs
    · rw [Event.queued, hacc, hqueue, List.flatMap_nil, List.length_nil, Nat.add_zero,
        Nat.sub_self]
      rfl
    · rfl
  · rfl

/-- What one call does, whichever it is. -/
structure Event.Emits (p : PortIndex) (e : Event) : Prop where
  valid : ∀ x ∈ accepted Call.writtenHw p [e], ValidPayload x
  conserved : e.emitted p ++ (e.after.ports p).txQueue.contents =
    (e.before.ports p).txQueue.contents ++ (accepted Call.writtenHw p [e]).flatMap encode
  exact : e.FlushesExactly p

/-- A call that is rejected, or made on another port. -/
theorem Event.Emits.silent {e : Event} {p : PortIndex}
    (hacc : accepted Call.writtenHw p [e] = []) (hafter : e.after.ports p = e.before.ports p)
    (hwrite : ∀ deviceBase data, e.call = .writeHw (some deviceBase) p data .valid → data.missing)
    (hpoll : ∀ deviceBase, e.call ≠ .pollHwPort (some deviceBase) p) : e.Emits p := by
  have hnothing := emits_nothing hacc (congrArg Port.txQueue hafter)
  refine ⟨by simp [hacc], by simp [hacc, hnothing, hafter], ?_, ?_⟩
  · intro deviceBase data hcall hdata
    exact absurd (hwrite deviceBase data hcall) hdata
  · intro deviceBase hcall
    exact absurd hcall (hpoll deviceBase)

theorem writeHw_step_rejected (hd : d.Ready) (m : DeviceMemory) {p : PortIndex}
    {device : Option Nat} {data : InBuffer} {ptr : Ptr}
    (hargs : device = none ∨ ptr = .null ∨ data.missing) :
    (Event.mk d m (.writeHw device p data ptr)).Emits p := by
  have hacc := @accepted_event Call.writtenHw ⟨d, m, .writeHw device p data ptr⟩ _ _ rfl p
  obtain ⟨hreply, hport⟩ := writeHw_rejected hd p p m hargs
  refine .silent ?_ hport ?_ (by simp)
  · rw [hacc, if_pos rfl]
    exact (congrArg (packetOf data.toList) (congrArg Reply.count hreply)).trans (packetOf_none _)
  · intro deviceBase data' hcall
    injection hcall with hdevice _ hdata hptr
    subst hdevice hdata hptr
    simpa using hargs

theorem writeHw_step_accepted (hd : d.Ready) (m : DeviceMemory) {p : PortIndex} (deviceBase : Nat)
    {data : InBuffer} {ptr : Ptr} (hargs : ¬ (ptr = .null ∨ data.missing)) :
    (Event.mk d m (.writeHw (some deviceBase) p data ptr)).Emits p := by
  obtain ⟨hstatus, hvalid, hconserved, hexact⟩ := writeHw_emits hd m deviceBase p data hargs _ rfl
  refine ⟨hvalid, hconserved, ?_, by simp⟩
  intro deviceBase' data' hcall hdata
  injection hcall with hdevice _ hdata' _
  obtain rfl := Option.some.inj hdevice
  subst hdata'
  exact ⟨hstatus.1, hstatus.2, hexact⟩

theorem writeHw_step (hd : d.Ready) (m : DeviceMemory) (p : PortIndex) (device : Option Nat)
    (portIndex : Nat) (data : InBuffer) (ptr : Ptr) :
    (Event.mk d m (.writeHw device portIndex data ptr)).Emits p := by
  by_cases hp : portIndex = p
  · subst hp
    by_cases hargs : device = none ∨ ptr = .null ∨ data.missing
    · exact writeHw_step_rejected hd m hargs
    · push Not at hargs
      obtain ⟨deviceBase, rfl⟩ := Option.ne_none_iff_exists'.1 hargs.1
      exact writeHw_step_accepted hd m deviceBase (by simpa using hargs.2)
  · have hacc := @accepted_event Call.writtenHw ⟨d, m, .writeHw device portIndex data ptr⟩ _ _ rfl p
    rw [if_neg hp] at hacc
    refine .silent hacc ?_ ?_ (by simp)
    · cases device with
      | none => exact (writeHw_rejected hd portIndex p m (.inl rfl)).2
      | some deviceBase =>
        exact (writeHw_port hd portIndex p m deviceBase data ptr).trans (if_neg fun h => hp h.1)
    · intro deviceBase data' hcall
      injection hcall with _ hindex _ _
      exact absurd hindex hp

theorem pollHwPort_step (hd : d.Ready) (m : DeviceMemory) (p : PortIndex) (device : Option Nat)
    (portIndex : Nat) : (Event.mk d m (.pollHwPort device portIndex)).Emits p := by
  have hacc : accepted Call.writtenHw p [⟨d, m, .pollHwPort device portIndex⟩] = [] :=
    accepted_other rfl p
  by_cases hp : portIndex = p ∧ ∃ deviceBase, device = some deviceBase
  · obtain ⟨rfl, deviceBase, rfl⟩ := hp
    obtain ⟨hstatus, hconserved, hexact⟩ := pollHwPort_emits hd m deviceBase p _ rfl
    refine ⟨by simp [hacc], by simpa [hacc] using hconserved, by simp, ?_⟩
    intro _ hcall
    injection hcall with hdevice _
    obtain rfl := Option.some.inj hdevice
    exact ⟨hstatus, hexact⟩
  · refine .silent hacc ?_ (by simp) ?_
    · show (pollHwPort d m device portIndex).2.ports p = d.ports p
      cases device with
      | none => exact pollHwPort_rejected hd portIndex p m
      | some deviceBase =>
        exact (pollHwPort_port hd portIndex p m deviceBase).trans
          (if_neg fun h => hp ⟨h, deviceBase, rfl⟩)
    · intro deviceBase hcall
      injection hcall with hdevice hindex
      exact hp ⟨hindex, deviceBase, hdevice⟩

/-- **One call.** -/
theorem hardwareTransmit_step (hd : d.Ready) (m : DeviceMemory) {c : Call}
    (hc : c.IsHardwareTransmit) (p : PortIndex) : (Event.mk d m c).Emits p := by
  cases c with
  | writeHw device portIndex data ptr => exact writeHw_step hd m p device portIndex data ptr
  | pollHwPort device portIndex => exact pollHwPort_step hd m p device portIndex
  | _ => exact hc.elim

/-! ## Runs -/

/-- **The hardware transmit path emits exactly the accepted frames, in order**, under any
back-pressure: what the flushes stored in the window, followed by what is still queued, is the
concatenation of the accepted encodings. -/
theorem hardwareTransmit_conserves {start d : Driver} {es : List Event}
    (hstart : FreshlyReset start) (hrun : Run Call.IsHardwareTransmit start es d)
    (p : PortIndex) :
    (∀ x ∈ accepted Call.writtenHw p es, ValidPayload x) ∧
      es.flatMap (Event.emitted p) ++ (d.ports p).txQueue.contents =
        (accepted Call.writtenHw p es).flatMap encode ∧
      ∀ e ∈ es, e.FlushesExactly p := by
  induction hrun with
  | nil =>
    obtain ⟨-, -, -, hqueue, -⟩ := hstart.contents p
    exact ⟨by simp [accepted], by simp [accepted, hqueue], by simp⟩
  | @snoc es d hprev m c hc ih =>
    obtain ⟨hvalid, hconserved, hexact⟩ := ih
    have hstep := hardwareTransmit_step (hprev.ready hstart.ready) m hc p
    rw [accepted_snoc]
    refine ⟨?_, ?_, ?_⟩
    · intro x hx
      rcases List.mem_append.1 hx with hx | hx
      · exact hvalid x hx
      · exact hstep.valid x hx
    · have hlast := hstep.conserved
      rw [List.flatMap_append, List.flatMap_singleton, List.append_assoc, hlast,
        ← List.append_assoc, hconserved, List.flatMap_append]
    · intro e he
      rcases List.mem_append.1 he with he | he
      · exact hexact e he
      · rw [List.mem_singleton.1 he]
        exact hstep.exact

theorem hardwareTransmit_conserves_twoBytes : ∃ es d,
    Run Call.IsHardwareTransmit (resetState .zero) es d ∧
      es.flatMap (Event.emitted 0) = [0x7E, 1] ∧
      es.flatMap (Event.emitted 0) ++ (d.ports 0).txQueue.contents = encode [1, 0x7E] := by
  have hnil : Run Call.IsHardwareTransmit (resetState .zero) [] _ := .nil
  have hrun := (hnil.snoc ⟨fun addr => if addr = regTxlvl then 2 else 0, fun _ => []⟩
    (.writeHw (some 0) 0 (.bytes [1, 0x7E]) .valid) trivial).snoc default
    (.pollHwPort (some 0) 0) trivial
  obtain ⟨-, hconserved, -⟩ := hardwareTransmit_conserves ⟨.zero, .inl rfl⟩ hrun 0
  exact ⟨_, _, hrun, by decide +kernel, hconserved.trans (by decide +kernel)⟩

end Xr17v358
