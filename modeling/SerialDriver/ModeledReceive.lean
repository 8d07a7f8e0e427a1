import SerialDriver.PortEffects
import SerialDriver.Stream

/-!
# The modeled receive path loses nothing

Bytes accepted by `receive` travel from `rx_pending` to `rx_fifo` in pieces of at most 256, are
decoded frame by frame into `rx_queue`, and are handed out by `read`. `Conserved` is the invariant:
the two encoded rings together hold whole encodings, and what was returned, what is decoded and
what is still encoded make up what was accepted. `modeledReceive_conserves` carries it through
every run.
-/

namespace Xr17v358

open Incremental

/-- The calls of the modeled receive path. -/
def Call.IsModeledReceive : Call → Prop
  | receive .. | pollPort _ | read .. => True
  | _ => False

/-- The packet a `receive` submits. -/
def Call.received : Call → Option (Nat × List UInt8)
  | receive portIndex data _ => some (portIndex, data.toList)
  | _ => none

/-- The port a `read` reads. -/
def Call.reads : Call → Option Nat
  | read portIndex .. => some portIndex
  | _ => none

/-- The packets in flight on a port, and the books they balance. -/
structure Conserved (port : Port) (accepted : List (List UInt8)) (returned : List UInt8)
    (inFlight : List (List UInt8)) : Prop where
  valid : ∀ x ∈ inFlight, ValidPayload x
  encoded : port.rxFifo.contents ++ port.rxPending.contents = inFlight.flatMap encode
  payloads : returned ++ port.rxQueue.contents ++ inFlight.flatten = accepted.flatten

variable {port : Port} {acc inFlight : List (List UInt8)} {ret : List UInt8}

/-! ## What one step preserves -/

theorem Conserved.receive (h : Conserved port acc ret inFlight) (portIndex : Nat)
    (data : InBuffer) :
    Conserved { port with rxPending := (enqueuePacket portIndex port.rxPending data).2.2 }
      (acc ++ packetOf data.toList (some (enqueuePacket portIndex port.rxPending data).2.1)) ret
      (inFlight ++
        packetOf data.toList (some (enqueuePacket portIndex port.rxPending data).2.1)) := by
  obtain ⟨-, hvalid, hcontents⟩ := enqueuePacket_packet portIndex port.rxPending data
  refine ⟨?_, ?_, ?_⟩
  · intro x hx
    rcases List.mem_append.1 hx with hx | hx
    · exact h.valid x hx
    · exact hvalid x hx
  · rw [hcontents, ← List.append_assoc, h.encoded, List.flatMap_append]
  · rw [List.flatten_append, List.flatten_append, ← List.append_assoc, h.payloads]

theorem Conserved.poll (h : Conserved port acc ret inFlight) :
    Conserved (stageRxBytesFromPending (flushTxQueueToModeledFifo port).2).2 acc ret inFlight := by
  obtain ⟨-, -, -, hs, hd⟩ := transferRingBytes_spec port.rxPending port.rxFifo fifoCapacity
  rw [stageRxBytesFromPending_snd, flushTxQueueToModeledFifo_snd]
  refine ⟨h.valid, ?_, h.payloads⟩
  dsimp only
  rw [hs, hd, List.append_assoc, List.take_append_drop]
  exact h.encoded

/-- A pass over an aligned buffer whose payloads all fit takes whole payloads until no complete
frame is left. -/
theorem Conserved.pass (h : Conserved port acc ret inFlight)
    (hfits : inFlight.flatten.length ≤ port.rxQueue.room) {e : Error} {fifo queue : List UInt8}
    (hpass : Pass port.rxFifo.contents port.rxQueue.contents port.rxQueue.room e fifo queue) :
    ∃ taken left, inFlight = taken ++ left ∧ e = .ok ∧
      Steps receiver port.rxFifo.contents (taken.map some) fifo ∧
      receiver.step fifo = none ∧ queue = port.rxQueue.contents ++ taken.flatten ∧
      fifo ++ port.rxPending.contents = left.flatMap encode :=
  hpass.aligned h.valid h.encoded hfits

theorem Conserved.read (h : Conserved port acc ret inFlight)
    (hfits : inFlight.flatten.length ≤ port.rxQueue.room) (portIndex length : Nat) :
    ∃ taken left, inFlight = taken ++ left ∧
      Conserved (readFromStagedRx portIndex port length).2 acc
        (ret ++ (readFromStagedRx portIndex port length).1.data) left := by
  obtain ⟨e, queue, rxFifo, rxQueue, hpass, hrun, -, -, hdata⟩ :=
    readFromStagedRx_spec portIndex port length
  obtain ⟨taken, left, rfl, -, -, -, rfl, hleft⟩ := h.pass hfits hpass
  refine ⟨taken, left, rfl, ?_⟩
  rw [hrun]
  refine ⟨fun x hx => h.valid x (List.mem_append_right _ hx), hleft, ?_⟩
  rw [List.append_assoc ret, hdata, ← h.payloads]
  simp

/-- A read of a conserved port fails only in front of an encoding that has not arrived whole, with
nothing decoded, and then changes nothing. -/
theorem Conserved.read_error (h : Conserved port acc ret inFlight)
    (hfits : inFlight.flatten.length ≤ port.rxQueue.room) (portIndex length : Nat)
    (herror : (readFromStagedRx portIndex port length).1.status ≠ .ok) :
    port.rxQueue.contents = [] ∧
      (∃ x, inFlight.head? = some x ∧ port.rxFifo.contents ≠ [] ∧
        port.rxFifo.contents <+: encode x ∧ port.rxFifo.contents ≠ encode x) ∧
      (readFromStagedRx portIndex port length).2 = port := by
  obtain ⟨e, queue, rxFifo, rxQueue, hpass, hread, -⟩ := readFromStagedRx_spec portIndex port length
  obtain ⟨taken, left, rfl, rfl, hsteps, hstuck, rfl, hleft⟩ := h.pass hfits hpass
  rw [hread, readReply, if_neg (by simp)] at herror
  have hempty : port.rxQueue.contents ++ taken.flatten = [] ∧ rxFifo.contents ≠ [] := by
    by_contra hne
    rw [if_neg hne] at herror
    exact herror rfl
  obtain ⟨hqueue, htaken⟩ := List.append_eq_nil_iff.1 hempty.1
  obtain rfl : taken = [] := by
    by_contra hne
    have := length_flatten_pos (fun x hx => h.valid x (List.mem_append_left _ hx)) hne
    simp [htaken] at this
  have hfifo : port.rxFifo.contents = rxFifo.contents := (Steps.refl _).rest_unique hsteps
  rw [← hfifo] at hstuck hleft hempty
  obtain ⟨x, hhead, hpre, hne⟩ := stuck_aligned h.valid hleft hstuck hempty.2
  refine ⟨hqueue, ⟨x, hhead, hempty.2, hpre, hne⟩, ?_⟩
  rw [readFromStagedRx_idle portIndex length hstuck hqueue hempty.2]

/-! ## Runs -/

/-- The bytes in flight fit `rx_queue` when no more are owed than it can hold. -/
theorem Conserved.fits (h : Conserved port acc ret inFlight) (hsized : port.Sized)
    (howed : acc.flatten.length ≤ ret.length + ringBufferStorageCapacity) :
    inFlight.flatten.length ≤ port.rxQueue.room := by
  have hbooks := congrArg List.length h.payloads
  have := hsized.rxQueue
  simp only [List.length_append] at hbooks
  unfold Ring.room
  omega

variable {start d : Driver} {es : List Event}

theorem accepted_receive (hd : d.Ready) (m : DeviceMemory) (portIndex : Nat) (p : PortIndex)
    (data : InBuffer) (ptr : Ptr) :
    accepted Call.received p [⟨d, m, .receive portIndex data ptr⟩] =
      if portIndex = p ∧ ¬ (ptr = .null ∨ data.missing) then
        packetOf data.toList (some (enqueuePacket p (d.ports p).rxPending data).2.1)
      else [] := by
  rw [accepted_event rfl]
  show (if portIndex = p then packetOf data.toList (receive d portIndex data ptr).1.count
    else []) = _
  by_cases hp : portIndex = p
  · subst hp
    by_cases hargs : ptr = .null ∨ data.missing
    · rw [if_pos rfl, if_neg fun h => h.2 hargs, receive, onPort_out, if_pos hargs]
      exact packetOf_none _
    · rw [if_pos rfl, if_pos ⟨rfl, hargs⟩, receive_reply hd p data hargs]
  · rw [if_neg hp, if_neg fun h => hp h.1]

theorem conserved_of_run (hstart : FreshlyReset start)
    (hrun : Run Call.IsModeledReceive start es d) (p : PortIndex)
    (howed : ∀ es', es' <+: es → (accepted Call.received p es').flatten.length ≤
      (returned Call.reads p es').length + ringBufferStorageCapacity) :
    ∃ inFlight, Conserved (d.ports p) (accepted Call.received p es)
      (returned Call.reads p es) inFlight := by
  induction hrun with
  | nil =>
    obtain ⟨-, hfifo, hpending, -, hqueue⟩ := hstart.contents p
    exact ⟨[], by simp, by simp [hfifo, hpending], by simp [hqueue, accepted, returned]⟩
  | @snoc es d hprev m c hc ih =>
    have hready := hprev.ready hstart.ready
    obtain ⟨inFlight, hinv⟩ := ih fun es' hes' => howed es' (hes'.trans (List.prefix_append ..))
    rw [accepted_snoc, returned_snoc]
    cases c with
    | receive portIndex data ptr =>
      rw [returned_other rfl, List.append_nil, accepted_receive hready]
      show ∃ inFlight, Conserved ((receive d portIndex data ptr).2.ports p) _ _ inFlight
      rw [receive_port hready]
      split_ifs
      · exact ⟨_, hinv.receive p data⟩
      · rw [List.append_nil]
        exact ⟨inFlight, hinv⟩
    | pollPort portIndex =>
      rw [accepted_other rfl, returned_other rfl, List.append_nil, List.append_nil]
      show ∃ inFlight, Conserved ((pollPort d portIndex).2.ports p) _ _ inFlight
      rw [pollPort_port hready]
      split_ifs
      · exact ⟨inFlight, hinv.poll⟩
      · exact ⟨inFlight, hinv⟩
    | read portIndex data ptr =>
      rw [accepted_other rfl, List.append_nil, returned_read hready portIndex p m rfl]
      show ∃ inFlight, Conserved ((read d portIndex data ptr).2.ports p) _ _ inFlight
      rw [read_port hready]
      split_ifs
      · have hfits := hinv.fits (hready.sized p) (howed es (List.prefix_append ..))
        obtain ⟨taken, left, -, hinv'⟩ := hinv.read hfits p data.length
        exact ⟨left, hinv'⟩
      · rw [List.append_nil]
        exact ⟨inFlight, hinv⟩
    | _ => exact hc.elim

/-- **The modeled receive path delivers every payload byte once and in order**, and its readiness
and its errors say exactly where the next frame is. -/
theorem modeledReceive_conserves (hstart : FreshlyReset start)
    (hrun : Run Call.IsModeledReceive start es d) (p : PortIndex)
    (howed : ∀ es', es' <+: es → (accepted Call.received p es').flatten.length ≤
      (returned Call.reads p es').length + ringBufferStorageCapacity) :
    ∃ inFlight : List (List UInt8), (∀ x ∈ inFlight, ValidPayload x) ∧
      (d.ports p).rxFifo.contents ++ (d.ports p).rxPending.contents = inFlight.flatMap encode ∧
      returned Call.reads p es ++ (d.ports p).rxQueue.contents ++ inFlight.flatten =
        (accepted Call.received p es).flatten ∧
      ((pollPort d p).1.status = .messageReady ↔ ∃ x, inFlight.head? = some x ∧
        encode x <+: ((pollPort d p).2.ports p).rxFifo.contents) ∧
      ∀ data : OutBuffer, ¬ data.missing → (read d p data .valid).1.status ≠ .ok →
        (d.ports p).rxQueue.contents = [] ∧
        (∃ x, inFlight.head? = some x ∧ (d.ports p).rxFifo.contents ≠ [] ∧
          (d.ports p).rxFifo.contents <+: encode x ∧ (d.ports p).rxFifo.contents ≠ encode x) ∧
        (read d p data .valid).2 = d := by
  have hready := hrun.ready hstart.ready
  obtain ⟨inFlight, hinv⟩ := conserved_of_run hstart hrun p howed
  refine ⟨inFlight, hinv.valid, hinv.encoded, hinv.payloads, ?_, ?_⟩
  · have hpoll := hinv.poll
    have hport : (pollPort d p).2.ports p =
        (stageRxBytesFromPending (flushTxQueueToModeledFifo (d.ports p)).2).2 := by
      rw [pollPort_port hready, if_pos rfl]
    rw [pollPort_reply hready, hport, ← complete_aligned hpoll.valid hpoll.encoded]
    split_ifs with hcount
    · exact iff_of_true rfl hcount
    · exact iff_of_false (by simp [Reply.code]) hcount
  · intro data hdata herror
    have hargs : ¬ (Ptr.valid = .null ∨ data.missing) := by simpa using hdata
    rw [read_reply hready p data hargs] at herror
    obtain ⟨hqueue, hhead, hsame⟩ :=
      hinv.read_error (hinv.fits (hready.sized p) (howed es List.prefix_rfl)) p data.length herror
    refine ⟨hqueue, hhead, ?_⟩
    apply onPort_unchanged hready
    rw [if_neg hargs]
    exact hsame

theorem modeledReceive_conserves_read : ∃ es d,
    Run Call.IsModeledReceive (resetState .zero) es d ∧ returned Call.reads 0 es = [1] ∧
      ∃ inFlight : List (List UInt8),
        returned Call.reads 0 es ++ (d.ports 0).rxQueue.contents ++ inFlight.flatten =
          [1, 0x7E] := by
  have hnil : Run Call.IsModeledReceive (resetState .zero) [] _ := .nil
  have hrun := ((hnil.snoc default (.receive 0 (.bytes [1, 0x7E]) .valid) trivial).snoc
    default (.pollPort 0) trivial).snoc default (.read 0 ⟨.valid, 1⟩ .valid) trivial
  obtain ⟨inFlight, -, -, hbooks, -⟩ := modeledReceive_conserves ⟨.zero, .inl rfl⟩ hrun 0
    fun es' hpre => forall_prefix (P := fun es => (accepted Call.received 0 es).flatten.length ≤
      (returned Call.reads 0 es).length + ringBufferStorageCapacity) (by decide +kernel) hpre
  exact ⟨_, _, hrun, by decide +kernel, inFlight, hbooks⟩

end Xr17v358
