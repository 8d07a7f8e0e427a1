import SerialDriver.QueueRefinement
import SerialDriver.CleanLine
import SerialDriver.Readiness

/-!
# What a poll announces

`messageReady` says that a message is there to be read. Two things make an application able to rely
on it. An announcement stands until the port is read: whatever else is called in between, a later
poll announces the same message (`announcement_stands`). And a poll misses none: on a clean line it
announces one exactly when a payload byte that the line has delivered is not decoded yet
(`polls_miss_nothing`). What a read left in `rx_queue` for want of room is not announced again.

The first is shown on the queues of `QueueMachine`: bytes join `rxFifo` at its back, and only a read
and the resets take any out (`DriverQueues.exec_grows`).
-/

namespace Xr17v358

open Incremental

/-- The call neither reads the port nor resets the driver. -/
def Call.Spares (p : PortIndex) : Call → Prop
  | read portIndex .. | readHw _ portIndex .. => portIndex ≠ p
  | resetState | reset => False
  | _ => True

/-! ## Queues that grow -/

section Grow

variable {q : DriverQueues} {p : PortIndex} {c : Call}

theorem stageHw_grows (port : PortQueues) (m : DeviceMemory) (deviceBase : Nat) (p : PortIndex) :
    port.rxFifo.items <+: (port.stageHw m deviceBase p).1.rxFifo.items := by
  unfold PortQueues.stageHw
  dsimp only
  split_ifs
  · exact List.prefix_rfl
  · exact List.prefix_append ..

theorem adding_grows {data : InBuffer} {ptr : Ptr} {add : PortQueues → Nat × PortQueues}
    {port : PortQueues} (h : port.rxFifo.items <+: (add port).2.rxFifo.items) :
    port.rxFifo.items <+: (DriverQueues.adding data ptr add port).2.rxFifo.items := by
  unfold DriverQueues.adding
  split_ifs
  · exact List.prefix_rfl
  · exact h

theorem onPort_grows {α : Type} {portIndex : Nat} {rejected : α}
    {body : PortIndex → PortQueues → α × PortQueues}
    (h : portIndex = p → (q p).rxFifo.items <+: (body p (q p)).2.rxFifo.items) :
    (q p).rxFifo.items <+: ((q.onPort portIndex rejected body).2 p).rxFifo.items := by
  rw [DriverQueues.onPort_snd]
  split_ifs with hp
  · exact h hp
  · exact List.prefix_rfl

/-- **Only a read and the resets take bytes out of `rxFifo`.** -/
theorem DriverQueues.exec_grows (q : DriverQueues) (m : DeviceMemory) (hc : c.Spares p) :
    (q p).rxFifo.items <+: ((q.exec m c).2.1 p).rxFifo.items := by
  cases c with
  | getUartBase | getTxFifoBase | writeTxFifo | readRxFifo | setDiscrete | setLoopback =>
    exact List.prefix_rfl
  | initializePort portIndex config =>
    refine onPort_grows fun _ => ?_
    cases config with
    | none => exact List.prefix_rfl
    | some config =>
      dsimp only
      split_ifs <;> exact List.prefix_rfl
  | getPortConfig =>
    refine onPort_grows fun _ => ?_
    split_ifs <;> exact List.prefix_rfl
  | fifoLevel | queueSize | transferNextTxFrame => exact onPort_grows fun _ => List.prefix_rfl
  | queueRead =>
    refine onPort_grows fun _ => ?_
    split_ifs <;> exact List.prefix_rfl
  | write | receive | injectTxFrameBytes | injectQueueFrameBytes =>
    exact onPort_grows fun _ => adding_grows List.prefix_rfl
  | injectRxFrameBytes => exact onPort_grows fun _ => adding_grows (List.prefix_append ..)
  | pollPort => exact onPort_grows fun _ => List.prefix_append ..
  | writeHw deviceBase =>
    refine onPort_grows fun _ => ?_
    cases deviceBase with
    | none => exact List.prefix_rfl
    | some deviceBase =>
      dsimp only
      split_ifs <;> exact List.prefix_rfl
  | pollHwPort deviceBase =>
    refine onPort_grows fun _ => ?_
    cases deviceBase with
    | none => exact List.prefix_rfl
    | some deviceBase =>
      exact stageHw_grows ((q p).flushHw m deviceBase p).1 ((q p).flushHw m deviceBase p).2
        deviceBase p
  | read | readHw => exact onPort_grows fun hp => absurd hp hc
  | resetState | reset => exact hc.elim

end Grow

variable {d d' : Driver} {p : PortIndex} {es : List Event}

theorem Run.grows (hrun : Run (Call.Spares p) d es d') :
    (d.queues p).rxFifo.items <+: (d'.queues p).rxFifo.items := by
  induction hrun with
  | nil => exact List.prefix_rfl
  | snoc _ m c hc ih =>
    obtain ⟨-, hqueues, -⟩ := exec_queues _ m c
    rw [Event.after, hqueues]
    exact ih.trans (DriverQueues.exec_grows _ m hc)

/-! ## What a poll reports -/

/-- A poll of a port reports what it leaves in `rxFifo`, unless it has no device. -/
theorem exec_polls (q : DriverQueues) (m : DeviceMemory) {c : Call} (hpoll : c.polls = some p.val) :
    (q.exec m c).1 = .code .errorInvalidArgument ∧ c.PassesNull ∨
      (q.exec m c).1 = ((q.exec m c).2.1 p).readiness ∧ ¬ c.PassesNull := by
  cases c with
  | pollPort portIndex =>
    obtain rfl : portIndex = p := Option.some.inj hpoll
    refine .inr ⟨?_, id⟩
    show (q.pollPort p).1 = ((q.pollPort p).2 p).readiness
    rw [DriverQueues.pollPort, DriverQueues.onPort_fst, DriverQueues.onPort_snd, if_pos rfl]
  | pollHwPort deviceBase portIndex =>
    obtain rfl : portIndex = p := Option.some.inj hpoll
    cases deviceBase with
    | none =>
      refine .inl ⟨?_, rfl⟩
      show (q.pollHwPort m none p).1.1 = _
      rw [DriverQueues.pollHwPort, DriverQueues.onPort_fst]
    | some deviceBase =>
      refine .inr ⟨?_, Option.some_ne_none _⟩
      show (q.pollHwPort m (some deviceBase) p).1.1 =
        ((q.pollHwPort m (some deviceBase) p).2 p).readiness
      rw [DriverQueues.pollHwPort, DriverQueues.onPort_fst, DriverQueues.onPort_snd, if_pos rfl]
  | _ => exact absurd hpoll (by simp [Call.polls])

/-- A poll initialises the driver. -/
theorem polls_queues (m : DeviceMemory) {c : Call} (hpoll : c.polls = some p.val) :
    ((Event.mk d m c).after.queues p).rxFifo.items =
      ((Event.mk d m c).after.ports p).rxFifo.contents := by
  have hensured : ensureStateInitialized (Event.mk d m c).after = (Event.mk d m c).after := by
    cases c with
    | pollPort | pollHwPort => exact ensureStateInitialized_onPort
    | _ => exact absurd hpoll (by simp [Call.polls])
  show ((ensureStateInitialized (Event.mk d m c).after).ports p).rxFifo.contents = _
  rw [hensured]

/-- **`messageReady` means a complete frame in `rx_fifo`**, in whatever state the poll is called. -/
theorem polls_messageReady_iff (m : DeviceMemory) {c : Call} (hpoll : c.polls = some p.val) :
    (Event.mk d m c).reply.status = .messageReady ↔ ¬ c.PassesNull ∧
      2 ≤ ((Event.mk d m c).after.ports p).rxFifo.contents.count frameDelimiter := by
  obtain ⟨hreply, hqueues, -⟩ := exec_queues d m c
  rw [← polls_queues m hpoll, Event.reply, hreply, Event.after, hqueues]
  rcases exec_polls d.queues m hpoll with ⟨herror, hnull⟩ | ⟨hready, hnull⟩
  · rw [herror]
    exact iff_of_false (by simp [Reply.code]) fun h => h.1 hnull
  · rw [hready, PortQueues.readiness]
    split_ifs with hcount
    · exact iff_of_true rfl ⟨hnull, hcount⟩
    · exact iff_of_false (by simp [Reply.code]) fun h => hcount h.2

/-! ## Announcements -/

theorem Call.spares_of_polls {c : Call} (hpoll : c.polls = some p.val) : c.Spares p := by
  cases c with
  | pollPort | pollHwPort => trivial
  | _ => exact absurd hpoll (by simp [Call.polls])

/-- **An announcement stands until the port is read.** Whatever state a poll announces a message in
and whatever calls follow, as long as they do not read the port nor reset the driver: the next poll
announces one again, and it is the same frame that the next read takes first. -/
theorem announcement_stands {m m' : DeviceMemory} {c c' : Call} (hpoll : c.polls = some p.val)
    (hready : (Event.mk d m c).reply.status = .messageReady)
    (hrun : Run (Call.Spares p) (Event.mk d m c).after es d') (hpoll' : c'.polls = some p.val)
    (hnull : ¬ c'.PassesNull) :
    (Event.mk d' m' c').reply.status = .messageReady ∧
      ∃ item rest more,
        receiver.step ((Event.mk d m c).after.ports p).rxFifo.contents = some (item, rest) ∧
        receiver.step ((Event.mk d' m' c').after.ports p).rxFifo.contents =
          some (item, rest ++ more) := by
  obtain ⟨-, hcount⟩ := (polls_messageReady_iff m hpoll).1 hready
  obtain ⟨more, hmore⟩ := (hrun.snoc m' c' (Call.spares_of_polls hpoll')).grows
  rw [polls_queues m hpoll, polls_queues m' hpoll'] at hmore
  obtain ⟨⟨item, rest⟩, hstep⟩ := Option.ne_none_iff_exists'.1 fun hnone =>
    absurd hcount (not_le.2 (step_eq_none_iff.1 hnone))
  refine ⟨(polls_messageReady_iff m' hpoll').2 ⟨hnull, ?_⟩, item, rest, more, hstep, ?_⟩
  · rw [← hmore, List.count_append]
    exact hcount.trans (Nat.le_add_right ..)
  · rw [← hmore]
    exact receiver.step_append hstep more

/-- A packet is queued and another port is read in between. -/
theorem announcement_stands_others : ∃ es d', Run (Call.Spares 0)
      (Event.mk (injected [0x7E, 1, 0x7E]) default (.pollPort 0)).after es d' ∧
    es.map Event.call = [.write 0 (.bytes [5]) .valid, .read 1 ⟨.valid, 4⟩ .valid] ∧
    (Event.mk d' default (.pollHwPort (some 0) 0)).reply.status = .messageReady := by
  have hready : (Event.mk (injected [0x7E, 1, 0x7E]) default (.pollPort 0)).reply.status =
      .messageReady := by decide +kernel
  have hrun : Run (Call.Spares 0)
      (Event.mk (injected [0x7E, 1, 0x7E]) default (.pollPort 0)).after _ _ :=
    (Run.nil.snoc default (.write 0 (.bytes [5]) .valid) trivial).snoc default
      (.read 1 ⟨.valid, 4⟩ .valid) Nat.one_ne_zero
  have hpoll' : Call.polls (.pollHwPort (some 0) 0) = some (0 : PortIndex).val := rfl
  exact ⟨_, _, hrun, rfl,
    (announcement_stands rfl hready hrun hpoll' (Option.some_ne_none (0 : Nat))).1⟩

/-! ## On a clean line -/

variable {start : Driver}

/-- **An announced message is read.** On clean lines, as long as `rx_queue` has room: after a poll
announced a message, and whatever else the application did in between, the next read of the port
returns at least a byte. -/
theorem announced_read_returns {m m' : DeviceMemory} {deviceBase : Nat} {es' : List Event}
    {c : Call} {buf : OutBuffer} {ptr : Ptr}
    (hstart : FreshlyReset start) (hrun : Run Call.IsService start es d)
    (hready : (Event.mk d m (.pollHwPort (some deviceBase) p)).reply.status = .messageReady)
    (hrun' : Run (fun c => c.IsService ∧ c.Spares p)
      (Event.mk d m (.pollHwPort (some deviceBase) p)).after es' d')
    (htakes : c.takes = some p.val) (hform : c.WellFormed) (hout : c.outBuffer = some (buf, ptr))
    (hlength : 0 < buf.length)
    (hline : CleanLine (stagedStream p
      (es ++ [⟨d, m, .pollHwPort (some deviceBase) p⟩] ++ es' ++ [⟨d', m', c⟩])))
    (hroomy : ∀ e ∈ es ++ [⟨d, m, .pollHwPort (some deviceBase) p⟩] ++ es' ++ [⟨d', m', c⟩],
      e.Roomy p) :
    (Event.mk d' m' c).reply.status = .ok ∧ (Event.mk d' m' c).reply.data ≠ [] := by
  have hall : Run Call.IsService start _ d' :=
    (hrun.snoc m (.pollHwPort (some deviceBase) p) trivial).append (hrun'.mono fun _ h => h.1)
  have hd := hall.ready hstart.ready
  have hreceived := receives_of_run hstart hall p fun e he =>
    hroomy e (List.mem_append_left _ he)
  obtain ⟨port, buf', ptr', hout', hdecodes, hsized, hreply, -⟩ :=
    read_decodes hd m' htakes hform
  obtain ⟨hfifo, hqueue, -⟩ := Event.decodes_spec hdecodes
  obtain ⟨rfl, rfl⟩ := Prod.mk.inj (Option.some.inj (hout.symm.trans hout'))
  have hcount : 2 ≤ port.rxFifo.contents.count frameDelimiter := by
    obtain ⟨-, hannounced⟩ := (polls_messageReady_iff m rfl).1 hready
    obtain ⟨more, hmore⟩ := (hrun'.mono fun _ h => h.2).grows
    rw [polls_queues m rfl, Driver.queues, ensureStateInitialized_of_ready hd] at hmore
    have hkept : (d'.ports p).rxFifo.contents = _ := hmore.symm
    rw [hfifo, hkept, List.count_append, List.count_append, Nat.add_assoc]
    exact hannounced.trans (Nat.le_add_right ..)
  rw [stagedStream_snoc] at hline
  obtain ⟨rest, ds, hds, hstream⟩ := (hreceived.stage hfifo hqueue).aligned hline
  obtain ⟨e, queue, rxFifo, rxQueue, hpass, hread, -⟩ := readFromStagedRx_spec p port buf.length
  obtain ⟨rfl, -⟩ := hpass.clean hds hstream
    (hroomy _ (List.mem_append_right _ (List.mem_singleton_self _)) port hdecodes)
  have hne : queue ≠ [] := hpass.queue_ne_nil hcount hsized.queue_ne_nil
  rw [hreply, hread, readReply, if_neg (by simp), if_neg fun h => hne h.1]
  exact ⟨rfl, take_ne_nil hne hlength⟩

/-- A packet is queued between the poll and the read. -/
theorem announced_read_returns_between : ∃ d d' : Driver,
    Run Call.IsService (resetState .zero) [] d ∧
    Run (fun c => c.IsService ∧ c.Spares 0)
      (Event.mk d (deviceHolding [0x7E, 1, 0x7E]) (.pollHwPort (some 0) 0)).after
      [⟨(Event.mk d (deviceHolding [0x7E, 1, 0x7E]) (.pollHwPort (some 0) 0)).after, default,
        .write 0 (.bytes [5]) .valid⟩] d' ∧
    (Event.mk d' default (.read 0 ⟨.valid, 4⟩ .valid)).reply.data ≠ [] := by
  have hrun : Run (fun c => c.IsService ∧ c.Spares 0)
      (Event.mk (resetState .zero) (deviceHolding [0x7E, 1, 0x7E]) (.pollHwPort (some 0) 0)).after
      _ _ := Run.nil.snoc default (.write 0 (.bytes [5]) .valid) ⟨trivial, trivial⟩
  have hform : Call.WellFormed (.read 0 ⟨.valid, 4⟩ .valid) :=
    Call.wellFormed_of_takes rfl (by decide) (by simp [Call.PassesNull, OutBuffer.missing])
  refine ⟨_, _, .nil, hrun, (announced_read_returns ⟨.zero, .inl rfl⟩ .nil
    (by decide +kernel) hrun rfl hform rfl (by decide) ⟨[[1]], by decide, by decide +kernel⟩
    fun e he port hport => neverShort_of_length_le ?_).2⟩
  revert e port
  decide +kernel

end Xr17v358
