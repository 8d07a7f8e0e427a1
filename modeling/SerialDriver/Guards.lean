import SerialDriver.PortEffects

/-!
# Guards that never fire, and calls that are turned away

Every ring of an initialised driver has the capacity of its storage and satisfies its invariant
(`reachable_ready`). So the branches that check for a short read or a short write are dead
(`services_valid`), and a call turned away for its port index or a null pointer does no more than
the lazy initialisation (`turnedAway_of_rejected`). `driver_invariant` puts them together.
-/

namespace Xr17v358

/-- The five rings of a port. -/
def Port.rings (port : Port) : List Ring :=
  [port.txFifo, port.rxFifo, port.rxPending, port.txQueue, port.rxQueue]

theorem Port.Sized.rings {port : Port} (h : port.Sized) :
    ∀ r ∈ port.rings, r.capacity = ringBufferStorageCapacity := by
  simp [Port.rings, h.txFifo, h.rxFifo, h.rxPending, h.txQueue, h.rxQueue]

/-! ## Which calls are meant -/

/-- The calls that move bytes into or between rings, or between a ring and the device. -/
def Call.Services : Call → Prop
  | write .. | writeHw .. | receive .. | pollPort _ | pollHwPort .. => True
  | _ => False

/-- The port index a call passes. -/
def Call.portIndex : Call → Option Nat
  | initializePort portIndex _ | getPortConfig portIndex _ | getUartBase portIndex _
  | getTxFifoBase portIndex _ | write portIndex .. | read portIndex .. | pollPort portIndex
  | writeTxFifo _ portIndex .. | readRxFifo _ portIndex .. | writeHw _ portIndex ..
  | readHw _ portIndex .. | pollHwPort _ portIndex | setDiscrete _ portIndex _
  | setLoopback _ portIndex _ | fifoLevel portIndex | queueSize portIndex | receive portIndex ..
  | injectRxFrameBytes portIndex .. | injectTxFrameBytes portIndex ..
  | injectQueueFrameBytes portIndex .. | transferNextTxFrame portIndex
  | queueRead portIndex .. => some portIndex
  | resetState | reset => none

/-- The call passes a null pointer where its function checks for one. -/
def Call.PassesNull : Call → Prop
  | initializePort _ config => config = none
  | getPortConfig _ ptr | getUartBase _ ptr | getTxFifoBase _ ptr => ptr = .null
  | write _ data ptr | receive _ data ptr | injectRxFrameBytes _ data ptr
  | injectTxFrameBytes _ data ptr | injectQueueFrameBytes _ data ptr => ptr = .null ∨ data.missing
  | read _ data ptr | queueRead _ data ptr => ptr = .null ∨ data.missing
  | writeTxFifo deviceBase _ data ptr | writeHw deviceBase _ data ptr =>
    deviceBase = none ∨ ptr = .null ∨ data.missing
  | readRxFifo deviceBase _ data ptr | readHw deviceBase _ data ptr =>
    deviceBase = none ∨ ptr = .null ∨ data.missing
  | pollHwPort deviceBase _ | setDiscrete deviceBase _ _ | setLoopback deviceBase _ _ =>
    deviceBase = none
  | pollPort _ | resetState | reset | fifoLevel _ | queueSize _ | transferNextTxFrame _ => False

/-- The call is turned away for its port index or a null pointer. -/
def Call.Rejected (c : Call) : Prop :=
  (∃ portIndex, c.portIndex = some portIndex ∧ getPortCount ≤ portIndex) ∨ c.PassesNull

/-- What a call that is turned away hands back: an error, or no frames from a counter. -/
def Reply.IsRejection (reply : Reply) : Prop :=
  reply = .code .errorInvalidPort ∨ reply = .code .errorInvalidArgument ∨ reply = .counted 0

/-! ## Dead branches -/

section OnPort

variable {α : Type} {d : Driver} {portIndex : Nat} {rejected : α}
  {body : PortIndex → Port → α × Port}

/-- What holds of the rejection and of everything the body hands back holds of the call. -/
theorem onPort_hands {P : α → Prop} (hrejected : P rejected)
    (hbody : ∀ p port, P (body p port).1) : P (d.onPort portIndex rejected body).1 := by
  unfold Driver.onPort
  split_ifs
  · exact hbody ..
  · exact hrejected

/-- A call with an index out of range, or whose body refuses, initialises and does nothing else. -/
theorem onPort_refuses {refusal : α}
    (h : getPortCount ≤ portIndex ∨ ∀ p port, body p port = (refusal, port)) :
    ((d.onPort portIndex rejected body).1 = rejected ∨
        (d.onPort portIndex rejected body).1 = refusal) ∧
      (d.onPort portIndex rejected body).2 = ensureStateInitialized d := by
  unfold Driver.onPort
  by_cases hindex : portIndex < getPortCount
  · have hbody := (h.resolve_left (not_le.2 hindex)) ⟨portIndex, hindex⟩
    simp [hindex, hbody, Driver.set_self]
  · simp [hindex]

end OnPort

/-- The call does not report an invalid frame. -/
def FrameValid (reply : Reply) : Prop := reply.status ≠ .errorInvalidFrame

theorem pollPort_body (port : Port) :
    (stageRxBytesFromPending (flushTxQueueToModeledFifo port).2).1 = .ok ∧
      (flushTxQueueToModeledFifo port).1 = .ok := by
  unfold stageRxBytesFromPending flushTxQueueToModeledFifo
  rw [transferRingBytes_eq, transferRingBytes_eq]
  exact ⟨rfl, rfl⟩

variable {d : Driver} {m : DeviceMemory} {c : Call}

/-- **The short-read and short-write branches are dead.** -/
theorem services_valid (hc : c.Services) :
    FrameValid (Event.mk d m c).reply := by
  cases c with
  | write portIndex data ptr =>
    show FrameValid (write d portIndex data ptr).1
    refine onPort_hands (P := FrameValid) (by simp [FrameValid, Reply.code]) ?_
    intro p port
    split_ifs <;> simp [FrameValid, Reply.code]
  | receive portIndex data ptr =>
    show FrameValid (receive d portIndex data ptr).1
    refine onPort_hands (P := FrameValid) (by simp [FrameValid, Reply.code]) ?_
    intro p port
    split_ifs <;> simp [FrameValid, Reply.code]
  | pollPort portIndex =>
    show FrameValid (pollPort d portIndex).1
    refine onPort_hands (P := FrameValid) (by simp [FrameValid, Reply.code]) ?_
    intro p port
    obtain ⟨hstage, hflush⟩ := pollPort_body port
    simp only [hflush, hstage, ne_eq, not_true_eq_false, if_false]
    split_ifs <;> simp [FrameValid, Reply.code]
  | writeHw deviceBase portIndex data ptr =>
    show FrameValid (writeHw d m deviceBase portIndex data ptr).1.1
    refine onPort_hands (P := fun out : Reply × DeviceMemory => FrameValid out.1)
      (by simp [FrameValid, Reply.code]) ?_
    intro p port
    cases deviceBase with
    | none => simp [FrameValid, Reply.code]
    | some deviceBase =>
      simp only [enqueuePacket_ok, flushTxQueueToHw_eq, ne_eq, not_true_eq_false, if_false]
      split_ifs <;> simp [FrameValid, Reply.code, Reply.counted]
  | pollHwPort deviceBase portIndex =>
    show FrameValid (pollHwPort d m deviceBase portIndex).1.1
    refine onPort_hands (P := fun out : Reply × DeviceMemory => FrameValid out.1)
      (by simp [FrameValid, Reply.code]) ?_
    intro p port
    cases deviceBase with
    | none => simp [FrameValid, Reply.code]
    | some deviceBase =>
      simp only [flushTxQueueToHw_eq, stageRxBytesFromHw_eq, ne_eq, not_true_eq_false, if_false]
      split_ifs <;> simp [FrameValid, Reply.code]
  | _ => exact hc.elim

/-! ## Calls that are turned away -/

/-- The event did no more than the lazy initialisation, and handed back a rejection. -/
structure Event.TurnedAway (e : Event) : Prop where
  reply : e.reply.IsRejection
  after : e.after = e.before ∨ e.after = ensureStateInitialized e.before
  memory : e.memoryAfter = e.memory

theorem Call.Rejected.cases {portIndex : Nat} (h : c.Rejected)
    (hindex : c.portIndex = some portIndex) : getPortCount ≤ portIndex ∨ c.PassesNull := by
  rcases h with ⟨i, hi, hcount⟩ | hnull
  · obtain rfl : portIndex = i := Option.some.inj (hindex.symm.trans hi)
    exact .inl hcount
  · exact .inr hnull

/-- A call that works on the modelled rings only. -/
theorem turnedAway_modeled {portIndex : Nat} {body : PortIndex → Port → Reply × Port}
    (hexec : c.exec d m = ((d.onPort portIndex (.code .errorInvalidPort) body).1,
      (d.onPort portIndex (.code .errorInvalidPort) body).2, m))
    (h : getPortCount ≤ portIndex ∨ ∀ p port, body p port = (.code .errorInvalidArgument, port)) :
    (Event.mk d m c).TurnedAway := by
  obtain ⟨hreply, hafter⟩ := @onPort_refuses _ d _ (.code .errorInvalidPort) _ _ h
  refine ⟨?_, .inr ?_, ?_⟩
  · show (c.exec d m).1.IsRejection
    rw [hexec]
    exact hreply.imp_right .inl
  · show (c.exec d m).2.1 = ensureStateInitialized d
    rw [hexec]
    exact hafter
  · show (c.exec d m).2.2 = m
    rw [hexec]

/-- A call that may also touch the device. -/
theorem turnedAway_hardware {portIndex : Nat}
    {body : PortIndex → Port → (Reply × DeviceMemory) × Port}
    (hexec : c.exec d m = ((d.onPort portIndex (.code .errorInvalidPort, m) body).1.1,
      (d.onPort portIndex (.code .errorInvalidPort, m) body).2,
      (d.onPort portIndex (.code .errorInvalidPort, m) body).1.2))
    (h : getPortCount ≤ portIndex ∨
      ∀ p port, body p port = ((.code .errorInvalidArgument, m), port)) :
    (Event.mk d m c).TurnedAway := by
  obtain ⟨hout, hafter⟩ := @onPort_refuses _ d _ (.code .errorInvalidPort, m) _ _ h
  refine ⟨?_, .inr ?_, ?_⟩
  · show (c.exec d m).1.IsRejection
    rw [hexec]
    rcases hout with hout | hout
    · exact .inl (congrArg Prod.fst hout)
    · exact .inr (.inl (congrArg Prod.fst hout))
  · show (c.exec d m).2.1 = ensureStateInitialized d
    rw [hexec]
    exact hafter
  · show (c.exec d m).2.2 = m
    rw [hexec]
    rcases hout with hout | hout
    · exact congrArg Prod.snd hout
    · exact congrArg Prod.snd hout

/-- A call that counts frames. -/
theorem turnedAway_counter {portIndex : Nat} {body : PortIndex → Port → Nat × Port}
    (hexec : c.exec d m =
      (.counted (d.onPort portIndex 0 body).1, (d.onPort portIndex 0 body).2, m))
    (h : getPortCount ≤ portIndex) : (Event.mk d m c).TurnedAway := by
  obtain ⟨hout, hafter⟩ := @onPort_refuses _ d _ 0 body 0 (.inl h)
  refine ⟨.inr (.inr ?_), .inr ?_, ?_⟩
  · show (c.exec d m).1 = .counted 0
    rw [hexec, hout.elim id id]
  · show (c.exec d m).2.1 = ensureStateInitialized d
    rw [hexec]
    exact hafter
  · show (c.exec d m).2.2 = m
    rw [hexec]

/-- A call that never looks at the driver's state. -/
theorem turnedAway_direct {out : Reply × DeviceMemory} (hexec : c.exec d m = (out.1, d, out.2))
    (h : out = (.code .errorInvalidPort, m) ∨ out = (.code .errorInvalidArgument, m)) :
    (Event.mk d m c).TurnedAway := by
  refine ⟨?_, .inl ?_, ?_⟩
  · show (c.exec d m).1.IsRejection
    rw [hexec]
    exact h.imp (congrArg Prod.fst) fun h => .inl (congrArg Prod.fst h)
  · show (c.exec d m).2.1 = d
    rw [hexec]
  · show (c.exec d m).2.2 = m
    rw [hexec]
    exact h.elim (congrArg Prod.snd) (congrArg Prod.snd)

/-- **A call that is turned away does no more than initialise.** -/
theorem turnedAway_of_rejected (hc : c.Rejected) : (Event.mk d m c).TurnedAway := by
  cases c with
  | initializePort portIndex config | getPortConfig portIndex ptr =>
    refine turnedAway_modeled rfl ((hc.cases rfl).imp_right ?_)
    rintro rfl p port
    rfl
  | write portIndex data ptr | read portIndex data ptr | receive portIndex data ptr
  | injectRxFrameBytes portIndex data ptr | injectTxFrameBytes portIndex data ptr
  | injectQueueFrameBytes portIndex data ptr | queueRead portIndex data ptr =>
    refine turnedAway_modeled rfl ((hc.cases rfl).imp_right ?_)
    intro hnull p port
    exact if_pos hnull
  | pollPort portIndex | transferNextTxFrame portIndex =>
    exact turnedAway_modeled rfl ((hc.cases rfl).imp_right False.elim)
  | writeHw deviceBase portIndex data ptr | readHw deviceBase portIndex data ptr =>
    refine turnedAway_hardware rfl ((hc.cases rfl).imp_right ?_)
    intro hnull p port
    cases deviceBase with
    | none => rfl
    | some deviceBase => exact if_pos (hnull.resolve_left (by simp))
  | pollHwPort deviceBase portIndex =>
    refine turnedAway_hardware rfl ((hc.cases rfl).imp_right ?_)
    rintro rfl p port
    rfl
  | fifoLevel portIndex | queueSize portIndex =>
    exact turnedAway_counter rfl ((hc.cases rfl).resolve_right id)
  | getUartBase portIndex ptr =>
    refine @turnedAway_direct _ _ _ (getUartBase portIndex ptr, m) rfl ?_
    by_cases hnull : ptr = .null
    · exact .inr (by rw [getUartBase, if_pos hnull])
    · have hindex := (hc.cases rfl).resolve_right hnull
      exact .inl (by rw [getUartBase, if_neg hnull, dif_neg (not_lt.2 hindex)])
  | getTxFifoBase portIndex ptr =>
    refine @turnedAway_direct _ _ _ (getTxFifoBase portIndex ptr, m) rfl ?_
    by_cases hnull : ptr = .null
    · exact .inr (by rw [getTxFifoBase, if_pos hnull])
    · have hindex := (hc.cases rfl).resolve_right hnull
      exact .inl (by rw [getTxFifoBase, if_neg hnull, dif_neg (not_lt.2 hindex)])
  | writeTxFifo deviceBase portIndex data ptr | readRxFifo deviceBase portIndex data ptr =>
    refine turnedAway_direct rfl ?_
    cases deviceBase with
    | none => exact .inr rfl
    | some deviceBase =>
      by_cases hnull : ptr = .null ∨ data.missing
      · exact .inr (if_pos hnull)
      · have hindex := (hc.cases rfl).resolve_right fun h => hnull (h.resolve_left (by simp))
        exact .inl ((if_neg hnull).trans (dif_neg (not_lt.2 hindex)))
  | setDiscrete deviceBase portIndex asserted | setLoopback deviceBase portIndex enabled =>
    refine turnedAway_direct rfl ?_
    cases deviceBase with
    | none => exact .inr rfl
    | some deviceBase =>
      have hindex := (hc.cases rfl).resolve_right (by simp [Call.PassesNull])
      exact .inl (dif_neg (not_lt.2 hindex))
  | resetState | reset =>
    rcases hc with ⟨_, hindex, -⟩ | hnull
    · exact absurd hindex (by simp [Call.portIndex])
    · exact hnull.elim

/-- **The invariant of the whole driver.** In every reachable state that is initialised, all rings
have the capacity of their storage and satisfy their invariant. In every reachable state, the
branches that check for a short read or a short write are dead, and a call turned away for its port
index or a null pointer does no more than initialise. -/
theorem driver_invariant (h : Reachable d) :
    (d.isInitialized = true → ∀ p, ∀ r ∈ (d.ports p).rings, r.capacity = 524800 ∧ r.1.WF) ∧
      ringBufferStorageCapacity = 524800 ∧
      (∀ m c, c.Services → (Event.mk d m c).reply.status ≠ .errorInvalidFrame) ∧
      (∀ m c, c.Rejected → (Event.mk d m c).TurnedAway) ∧
      (d.isInitialized = true → ∀ m c, c.Rejected → (Event.mk d m c).after = d) := by
  refine ⟨?_, rfl, fun m c => services_valid, fun m c => turnedAway_of_rejected, ?_⟩
  · intro hinit p r hr
    have hd : d.Ready := h.ready hinit
    exact ⟨(hd.sized p).rings r hr, r.2⟩
  · intro hinit m c hc
    have hensure : ensureStateInitialized d = d := if_pos hinit
    exact (turnedAway_of_rejected hc).after.elim id fun hafter => hafter.trans hensure

theorem driver_invariant_injected :
    (∀ p, ∀ r ∈ ((injected [0x7E]).ports p).rings, r.capacity = 524800 ∧ r.1.WF) ∧
      (Event.mk (injected [0x7E]) default (.pollPort 8)).after = injected [0x7E] := by
  obtain ⟨hrings, -, -, -, hrejected⟩ := driver_invariant (reachable_injected [0x7E])
  exact ⟨hrings rfl, hrejected rfl default (.pollPort 8) (.inl ⟨8, rfl, le_rfl⟩)⟩

end Xr17v358
