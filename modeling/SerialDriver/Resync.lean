import SerialDriver.HardwareReceive
import SerialDriver.Wedge

/-!
# Reading behind garbage

Reading a port until it is drained returns what its line delivers (`returned_of_drained`), and
enough reads drain it (`exists_drained`). Encodings behind garbage therefore come out whole when the
garbage leaves the line between frames. Otherwise their delimiters are read one too late, and not
one of them comes out (`reads_resynchronise_iff`): a single stray delimiter is enough
(`reads_strayDelimiter`).
-/

namespace Xr17v358

open Incremental

def Call.IsRead : Call → Prop
  | read .. => True
  | _ => False

/-- No complete frame is left in `rx_fifo` and nothing in `rx_queue`. -/
def Port.Drained (port : Port) : Prop :=
  port.rxFifo.contents.count frameDelimiter < 2 ∧ port.rxQueue.contents = []

/-- The bytes on the receive side of a port. -/
def Port.backlog (port : Port) : Nat :=
  port.rxFifo.contents.length + port.rxQueue.contents.length

/-! ## Reads drain a port -/

theorem readFromStagedRx_backlog (portIndex : Nat) (port : Port) (length : Nat) :
    (readFromStagedRx portIndex port length).2.backlog +
          (readFromStagedRx portIndex port length).1.data.length ≤ port.backlog ∧
      ((readFromStagedRx portIndex port length).2.rxFifo.contents.length <
          port.rxFifo.contents.length →
        (readFromStagedRx portIndex port length).2.backlog < port.backlog) := by
  obtain ⟨e, queue, rxFifo, rxQueue, hpass, hrun, -, -, hdata⟩ :=
    readFromStagedRx_spec portIndex port length
  obtain ⟨os, hsteps, hqueue, -⟩ := hpass.items
  have hlength := length_payloads_le hsteps
  have hsplit := congrArg List.length hdata
  rw [List.length_append] at hsplit
  rw [hrun]
  unfold Port.backlog
  dsimp only
  refine ⟨by omega, ?_⟩
  intro hshrinks
  have hpos : 0 < os.length := List.length_pos_iff.2 fun hnil => by
    subst hnil
    rw [(Steps.refl _).rest_unique hsteps] at hshrinks
    exact lt_irrefl _ hshrinks
  omega

variable {d d' : Driver} {p : PortIndex} {es : List Event}

theorem read_backlog_lt (hd : d.Ready) (hprogress : (d.ports p).CanProgress) :
    ((read d p ⟨.valid, 1⟩ .valid).2.ports p).backlog < (d.ports p).backlog := by
  obtain ⟨hle, hlt⟩ := readFromStagedRx_backlog p (d.ports p) 1
  rw [read_port hd, if_pos ⟨rfl, by simp [OutBuffer.missing]⟩]
  rcases readFromStagedRx_progress p Nat.one_pos hprogress (hd.sized p).queue_ne_nil with
    hdata | hshrinks
  · have := List.length_pos_iff.2 hdata
    dsimp only
    omega
  · exact hlt hshrinks

/-- **Enough reads drain a port.** -/
theorem exists_drained (hd : d.Ready) (p : PortIndex) :
    ∃ es d', Run Call.IsRead d es d' ∧ (d'.ports p).Drained := by
  induction hn : (d.ports p).backlog using Nat.strong_induction_on generalizing d with
  | _ n ih =>
    by_cases hprogress : (d.ports p).CanProgress
    · have hfirst : Run Call.IsRead d _ _ :=
        Run.nil.snoc default (.read p ⟨.valid, 1⟩ .valid) trivial
      have hlt : ((read d p ⟨.valid, 1⟩ .valid).2.ports p).backlog < n :=
        hn ▸ read_backlog_lt hd hprogress
      obtain ⟨es, d', hrun, hdrained⟩ := ih _ hlt (hfirst.ready hd) rfl
      exact ⟨_, d', hfirst.append hrun, hdrained⟩
    · unfold Port.CanProgress at hprogress
      push Not at hprogress
      exact ⟨[], d, .nil, hprogress⟩

/-! ## What reads return -/

/-- Reads from an empty `rx_queue` never cut a payload, since `rx_queue` has room for all that
`rx_fifo` holds. -/
theorem received_reads (hd : d.Ready) (hqueue : (d.ports p).rxQueue.contents = [])
    (hrun : Run Call.IsRead d es d') :
    (d'.ports p).Received (d.ports p).rxFifo.contents (returned Call.takes p es) ∧
      (d'.ports p).backlog ≤ ringBufferStorageCapacity := by
  induction hrun with
  | nil =>
    refine ⟨⟨[], .refl _, by rw [hqueue]; rfl⟩, ?_⟩
    rw [Port.backlog, hqueue, ← (hd.sized p).rxFifo]
    exact (d.ports p).rxFifo.length_le
  | @snoc es d₁ hprev m c hc ih =>
    obtain ⟨hreceived, hbacklog⟩ := ih
    have hready := hprev.ready hd
    cases c with
    | read portIndex data ptr =>
      have hroomy : (Event.mk d₁ m (.read portIndex data ptr)).Roomy p := by
        intro port hport
        rw [Event.decodes] at hport
        dsimp only at hport
        split_ifs at hport
        · obtain rfl : d₁.ports p = port := Option.some.inj hport
          refine neverShort_of_length_le ?_
          rw [Ring.room, (hready.sized p).rxQueue]
          unfold Port.backlog at hbacklog
          omega
        · exact absurd hport (by simp)
      have hstep := received_step hready m (c := .read portIndex data ptr) trivial hreceived hroomy
      rw [show (Event.mk d₁ m (.read portIndex data ptr)).staged p = [] from rfl,
        List.append_nil, ← returned_snoc] at hstep
      refine ⟨hstep, ?_⟩
      show ((read d₁ portIndex data ptr).2.ports p).backlog ≤ _
      rw [read_port hready]
      split_ifs
      · have := (readFromStagedRx_backlog p (d₁.ports p) data.length).1
        omega
      · exact hbacklog
    | _ => exact hc.elim

/-- **Reads that drain a port return what its line delivers.** -/
theorem returned_of_drained (hd : d.Ready) (hqueue : (d.ports p).rxQueue.contents = [])
    (hrun : Run Call.IsRead d es d') (hdrained : (d'.ports p).Drained) :
    returned Call.takes p es = delivered (d.ports p).rxFifo.contents := by
  obtain ⟨⟨os, hsteps, hpayloads⟩, -⟩ := received_reads hd hqueue hrun
  rw [hdrained.2, List.append_nil] at hpayloads
  rw [hpayloads]
  exact delivered_of_steps hsteps (step_eq_none_iff.2 hdrained.1)

/-- **Reading resynchronises exactly when the garbage leaves the line between frames**, unless the
garbage itself delivers the payloads that are lost. -/
theorem reads_resynchronise_iff (hd : d.Ready) (hqueue : (d.ports p).rxQueue.contents = [])
    {g : List UInt8} {ds : List (List UInt8)} (hds : ∀ x ∈ ds, ValidPayload x) (hne : ds ≠ [])
    (hfifo : (d.ports p).rxFifo.contents = g ++ ds.flatMap encode) :
    (∃ es d', Run Call.IsRead d es d' ∧ (d'.ports p).Drained) ∧
      ∀ es d', Run Call.IsRead d es d' → (d'.ports p).Drained →
        (ds.tail.flatten <:+ returned Call.takes p es ↔
          lineAfter g = .idle ∨ ds.tail.flatten <:+ delivered (g ++ [frameDelimiter])) := by
  refine ⟨exists_drained hd p, ?_⟩
  intro es d' hrun hdrained
  rw [returned_of_drained hd hqueue hrun hdrained, hfifo, delivered_garbage hds hne]
  split_ifs with hidle
  · refine iff_of_true ?_ (.inl hidle)
    obtain ⟨x, ds, rfl⟩ := List.exists_cons_of_ne_nil hne
    rw [List.tail_cons, List.flatten_cons, ← List.append_assoc]
    exact List.suffix_append ..
  · exact ⟨.inr, fun h => h.resolve_left hidle⟩

/-- Noise in front of two packets. -/
theorem reads_resynchronise_iff_noise :
    (∃ es d', Run Call.IsRead (injected [9, 0x7E, 1, 0x7E, 0x7E, 2, 0x7E]) es d' ∧
        (d'.ports 0).Drained) ∧
      ∀ es d', Run Call.IsRead (injected [9, 0x7E, 1, 0x7E, 0x7E, 2, 0x7E]) es d' →
        (d'.ports 0).Drained → [2] <:+ returned Call.takes 0 es := by
  have hfifo : ((injected [9, 0x7E, 1, 0x7E, 0x7E, 2, 0x7E]).ports 0).rxFifo.contents =
      [9] ++ [[1], [2]].flatMap encode := by
    rw [injected_port, contents_holding]
    rfl
  have hvalid : ∀ x ∈ [[1], [2]], ValidPayload x := by decide
  obtain ⟨hdrains, hsuffix⟩ :=
    reads_resynchronise_iff (ready_injected _) rfl hvalid (by simp) hfifo
  exact ⟨hdrains, fun es d' hrun hdrained => (hsuffix es d' hrun hdrained).2 (.inl rfl)⟩

/-- A stray delimiter in front of two packets: neither of them is ever returned. -/
theorem reads_strayDelimiter :
    ((injected [0x7E, 0x7E, 1, 0x7E, 0x7E, 2, 0x7E]).ports 0).rxQueue.contents = [] ∧
      ((injected [0x7E, 0x7E, 1, 0x7E, 0x7E, 2, 0x7E]).ports 0).rxFifo.contents =
        [0x7E] ++ [[1], [2]].flatMap encode ∧
      ∃ es d', Run Call.IsRead (injected [0x7E, 0x7E, 1, 0x7E, 0x7E, 2, 0x7E]) es d' ∧
        (d'.ports 0).Drained ∧ returned Call.takes 0 es = [] ∧
        ¬ [[1], [2]].tail.flatten <:+ returned Call.takes 0 es := by
  have hfifo : ((injected [0x7E, 0x7E, 1, 0x7E, 0x7E, 2, 0x7E]).ports 0).rxFifo.contents =
      [0x7E] ++ [[1], [2]].flatMap encode := by
    rw [injected_port, contents_holding]
    rfl
  obtain ⟨es, d', hrun, hdrained⟩ :=
    exists_drained (ready_injected [0x7E, 0x7E, 1, 0x7E, 0x7E, 2, 0x7E]) 0
  have hnothing : returned Call.takes 0 es = [] := by
    rw [returned_of_drained (ready_injected _) rfl hrun hdrained, hfifo]
    rfl
  exact ⟨rfl, hfifo, es, d', hrun, hdrained, hnothing, by rw [hnothing]; decide⟩

end Xr17v358
