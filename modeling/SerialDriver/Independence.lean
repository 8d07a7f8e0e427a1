import SerialDriver.Lib.Noninterference
import SerialDriver.FreshStart
import SerialDriver.Guards

/-!
# Transmit traffic never influences reception

On the modeled path, the reception calls of a run return the same whatever transmit calls are made
between them (`reception_independent`). A poll serves the transmit rings first and returns at once if
that fails; it never does (`pollPort_body`). So the receive rings are a view that reception calls
depend on, and that transmit calls leave alone (`unwinding_reception`).
-/

namespace Xr17v358

open Noninterference

/-- The reception calls of the modeled path. -/
def Call.IsReception : Call → Bool
  | receive .. | injectRxFrameBytes .. | pollPort _ | read .. => true
  | _ => false

/-- The reception and transmit calls of the modeled path. -/
def Call.IsTraffic : Call → Prop
  | receive .. | injectRxFrameBytes .. | pollPort _ | read .. => True
  | write .. | injectTxFrameBytes .. | injectQueueFrameBytes .. | transferNextTxFrame _
  | queueRead .. => True
  | _ => False

/-- Perform a call that does not look at the device. -/
def Call.perform (d : Driver) (c : Call) : Reply × Driver :=
  ((c.exec d default).1, (c.exec d default).2.1)

theorem Call.IsTraffic.perform {c : Call} (hc : c.IsTraffic) (d : Driver) (m : DeviceMemory) :
    c.perform d = ((Event.mk d m c).reply, (Event.mk d m c).after) := by
  cases c with
  | receive | injectRxFrameBytes | pollPort | read | write | injectTxFrameBytes
  | injectQueueFrameBytes | transferNextTxFrame | queueRead => rfl
  | _ => exact hc.elim

variable {d d' : Driver}

/-! ## Reception calls -/

section Reception

variable (h : d.Related Port.RxSame d') (portIndex : Nat)

include h

theorem receive_rx (data : InBuffer) (ptr : Ptr) :
    SameResult (Driver.Related · Port.RxSame ·) (receive d portIndex data ptr)
      (receive d' portIndex data ptr) := by
  apply onPort_related h
  intro p port port' hs
  obtain ⟨hstatus, hcount, hpending⟩ := hs.rxPending.enqueuePacket p data
  simp only [hstatus, hcount]
  split_ifs
  · exact ⟨rfl, hs⟩
  · exact ⟨rfl, hs.rxFifo, hpending, hs.rxQueue⟩

theorem injectRxFrameBytes_rx (data : InBuffer) (ptr : Ptr) :
    SameResult (Driver.Related · Port.RxSame ·) (injectRxFrameBytes d portIndex data ptr)
      (injectRxFrameBytes d' portIndex data ptr) := by
  apply onPort_related h
  intro p port port' hs
  obtain ⟨hcount, hfifo⟩ := hs.rxFifo.writeBytes data.toList
  simp only [hcount]
  split_ifs
  · exact ⟨rfl, hs⟩
  · exact ⟨rfl, hfifo, hs.rxPending, hs.rxQueue⟩

theorem read_rx (data : OutBuffer) (ptr : Ptr) :
    SameResult (Driver.Related · Port.RxSame ·) (read d portIndex data ptr)
      (read d' portIndex data ptr) := by
  apply onPort_related h
  intro p port port' hs
  split_ifs
  · exact ⟨rfl, hs⟩
  · exact hs.readFromStagedRx p data.length

/-- A poll stages bytes whatever the transmit rings hold. -/
theorem pollPort_rx :
    SameResult (Driver.Related · Port.RxSame ·) (pollPort d portIndex) (pollPort d' portIndex) := by
  apply onPort_related h
  intro p port port' hs
  have hflushed : (flushTxQueueToModeledFifo port).2.RxSame (flushTxQueueToModeledFifo port').2 :=
    ⟨hs.rxFifo, hs.rxPending, hs.rxQueue⟩
  obtain ⟨-, hstaged⟩ := hflushed.stage
  obtain ⟨hstage, hflush⟩ := pollPort_body port
  obtain ⟨hstage', hflush'⟩ := pollPort_body port'
  simp only [hflush, hflush', hstage, hstage', hstaged.rxFifo.hasCompleteFrame, ne_eq,
    not_true_eq_false, if_false]
  split_ifs
  · exact .pair hstaged
  · exact .pair hstaged

end Reception

/-- **The receive rings are all that reception depends on, and transmit calls leave them alone.** -/
theorem unwinding_reception :
    Unwinding (fun d c => Call.perform d c) Call.IsReception Call.IsTraffic
      (Driver.Related · Port.RxSame ·) where
  consistent := by
    intro d d' c _ hlow h
    cases c with
    | receive portIndex data ptr => exact receive_rx h portIndex data ptr
    | injectRxFrameBytes portIndex data ptr => exact injectRxFrameBytes_rx h portIndex data ptr
    | pollPort portIndex => exact pollPort_rx h portIndex
    | read portIndex data ptr => exact read_rx h portIndex data ptr
    | _ => exact absurd hlow Bool.false_ne_true
  respects := by
    intro d d' c hc hlow h
    cases c with
    | write | injectTxFrameBytes | injectQueueFrameBytes | queueRead =>
      refine onPort_keeps_related h ?_
      intro p port port' hs
      split_ifs
      · exact hs
      · exact ⟨hs.rxFifo, hs.rxPending, hs.rxQueue⟩
    | transferNextTxFrame =>
      refine onPort_keeps_related h ?_
      intro p port port' hs
      split_ifs
      · exact hs
      · exact ⟨hs.rxFifo, hs.rxPending, hs.rxQueue⟩
      · exact hs
    | receive | injectRxFrameBytes | pollPort | read => exact absurd hlow.symm Bool.false_ne_true
    | _ => exact hc.elim

/-! ## Runs -/

/-- A run as a sequence of inputs. -/
theorem Run.inputs {start : Driver} {es : List Event} (hrun : Run Call.IsTraffic start es d) :
    (∀ c ∈ es.map Event.call, c.IsTraffic) ∧
      final (fun d c => Call.perform d c) start (es.map Event.call) = d ∧
      (es.filter (·.call.IsReception)).map Event.reply =
        lowOutputs (fun d c => Call.perform d c) Call.IsReception start (es.map Event.call) := by
  induction hrun with
  | nil => exact ⟨by simp, rfl, rfl⟩
  | @snoc es d _ m c hc ih =>
    obtain ⟨hcalls, hfinal, hreplies⟩ := ih
    have hperform := hc.perform d m
    rw [List.map_append, List.map_singleton, final_snoc, lowOutputs_snoc, hfinal, hperform,
      ← hreplies, List.filter_append, List.map_append]
    refine ⟨?_, rfl, ?_⟩
    · intro c' hc'
      rcases List.mem_append.1 hc' with hmem | hmem
      · exact hcalls c' hmem
      · exact List.mem_singleton.1 hmem ▸ hc
    · congr 1
      by_cases hlow : c.IsReception = true
      · rw [if_pos hlow, List.filter_cons_of_pos (p := fun e : Event => e.call.IsReception) hlow]
        rfl
      · rw [if_neg hlow, List.filter_cons_of_neg (p := fun e : Event => e.call.IsReception) hlow]
        rfl

/-- **Transmit traffic never influences reception.** Two runs from a reset that make the same
reception calls in the same order, with whatever transmit calls between them, get the same replies
to these: statuses, counts and bytes. -/
theorem reception_independent {start start' d d' : Driver} {es es' : List Event}
    (hstart : FreshlyReset start) (hstart' : FreshlyReset start')
    (hrun : Run Call.IsTraffic start es d) (hrun' : Run Call.IsTraffic start' es' d')
    (hsame : (es.map Event.call).filter Call.IsReception =
      (es'.map Event.call).filter Call.IsReception) :
    (es.filter (·.call.IsReception)).map Event.reply =
      (es'.filter (·.call.IsReception)).map Event.reply := by
  obtain ⟨hcalls, -, hreplies⟩ := hrun.inputs
  obtain ⟨hcalls', -, hreplies'⟩ := hrun'.inputs
  have hrelated : ∀ {start : Driver}, FreshlyReset start →
      start.Related Port.RxSame (resetState .zero) :=
    fun h p => (h.same ⟨.zero, .inl rfl⟩ p).rx
  rw [hreplies, hreplies']
  exact unwinding_reception.noninterference (hrelated hstart) (hrelated hstart') hcalls hcalls'
    hsame

theorem reception_independent_malformed : ∃ es es' d d',
    Run Call.IsTraffic (resetState .zero) es d ∧ Run Call.IsTraffic (reset .zero) es' d' ∧
      es.length = 3 ∧ es'.length = 5 ∧
      (es.filter (·.call.IsReception)).map Event.reply =
        (es'.filter (·.call.IsReception)).map Event.reply := by
  have hrun := (((@Run.nil Call.IsTraffic (resetState .zero)).snoc default
    (.receive 0 (.bytes [0x11]) .valid) trivial).snoc default (.pollPort 0) trivial).snoc default
    (.read 0 ⟨.valid, 8⟩ .valid) trivial
  have hrun' := (((((@Run.nil Call.IsTraffic (reset .zero)).snoc default
    (.injectTxFrameBytes 0 (.bytes [0x7E, 0x7E]) .valid) trivial).snoc default
    (.receive 0 (.bytes [0x11]) .valid) trivial).snoc default
    (.write 0 (.bytes [0x22]) .valid) trivial).snoc default (.pollPort 0) trivial).snoc default
    (.read 0 ⟨.valid, 8⟩ .valid) trivial
  refine ⟨_, _, _, _, hrun, hrun', rfl, rfl,
    reception_independent ⟨.zero, .inl rfl⟩ ⟨.zero, .inr rfl⟩ hrun hrun' ?_⟩
  simp only [List.nil_append, List.cons_append, List.map_cons, List.map_nil]
  rfl

end Xr17v358
