import SerialDriver.PortEffects
import SerialDriver.Stream

/-!
# The modeled transmit path preserves the packet stream

`write` adds whole encodings to `tx_queue`, polls move them to `tx_fifo` in pieces of at most 256
bytes, and `queueRead` decodes whole frames out of `tx_fifo`. As long as `queueRead` succeeds, the
two rings together hold the encodings of the packets accepted and not yet returned
(`modeledTransmit_preserves`).
-/

namespace Xr17v358

/-- The calls of the modeled transmit path. -/
def Call.IsModeledTransmit : Call → Prop
  | write .. | pollPort _ | queueRead .. => True
  | _ => False

/-- The packet a `write` submits. -/
def Call.written : Call → Option (Nat × List UInt8)
  | write portIndex data _ => some (portIndex, data.toList)
  | _ => none

/-- The replies of the `queueRead` calls on a port. -/
def queueReads (p : PortIndex) (es : List Event) : List Reply :=
  es.flatMap fun e =>
    match e.call with
    | .queueRead portIndex .. => if portIndex = p then [e.reply] else []
    | _ => []

theorem queueReads_snoc (p : PortIndex) (es : List Event) (e : Event) :
    queueReads p (es ++ [e]) = queueReads p es ++ queueReads p [e] :=
  List.flatMap_append

theorem queueReads_event (p : PortIndex) (d : Driver) (m : DeviceMemory) (portIndex : Nat)
    (data : OutBuffer) (ptr : Ptr) :
    queueReads p [⟨d, m, .queueRead portIndex data ptr⟩] =
      if portIndex = p then [(queueRead d portIndex data ptr).1] else [] := by
  rw [queueReads, List.flatMap_singleton]
  rfl

theorem accepted_write {d : Driver} (hd : d.Ready) (m : DeviceMemory) (portIndex : Nat)
    (p : PortIndex) (data : InBuffer) (ptr : Ptr) :
    accepted Call.written p [⟨d, m, .write portIndex data ptr⟩] =
      if portIndex = p ∧ ¬ (ptr = .null ∨ data.missing) then
        packetOf data.toList (some (enqueuePacket p (d.ports p).txQueue data).2.1)
      else [] := by
  rw [accepted_event rfl]
  show (if portIndex = p then packetOf data.toList (write d portIndex data ptr).1.count else []) = _
  by_cases hp : portIndex = p
  · subst hp
    by_cases hargs : ptr = .null ∨ data.missing
    · rw [if_pos rfl, if_neg fun h => h.2 hargs, write, onPort_out, if_pos hargs]
      exact packetOf_none _
    · rw [if_pos rfl, if_pos ⟨rfl, hargs⟩, write_reply hd p data hargs]
  · rw [if_neg hp, if_neg fun h => hp h.1]

/-- The packets on their way through the two transmit rings. -/
structure Outstanding (port : Port) (packets : List (List UInt8)) : Prop where
  valid : ∀ x ∈ packets, ValidPayload x
  encoded : port.txFifo.contents ++ port.txQueue.contents = packets.flatMap encode

variable {port : Port} {packets : List (List UInt8)}

/-! ## What one step preserves -/

theorem Outstanding.write (h : Outstanding port packets) (portIndex : Nat) (data : InBuffer) :
    Outstanding { port with txQueue := (enqueuePacket portIndex port.txQueue data).2.2 }
      (packets ++
        packetOf data.toList (some (enqueuePacket portIndex port.txQueue data).2.1)) := by
  obtain ⟨-, hvalid, hcontents⟩ := enqueuePacket_packet portIndex port.txQueue data
  refine ⟨?_, ?_⟩
  · intro x hx
    rcases List.mem_append.1 hx with hx | hx
    · exact h.valid x hx
    · exact hvalid x hx
  · rw [hcontents, ← List.append_assoc, h.encoded, List.flatMap_append]

theorem Outstanding.poll (h : Outstanding port packets) :
    Outstanding (stageRxBytesFromPending (flushTxQueueToModeledFifo port).2).2 packets := by
  obtain ⟨-, -, -, hs, hd⟩ := transferRingBytes_spec port.txQueue port.txFifo fifoCapacity
  rw [stageRxBytesFromPending_snd, flushTxQueueToModeledFifo_snd]
  refine ⟨h.valid, ?_⟩
  dsimp only
  rw [hs, hd, List.append_assoc, List.take_append_drop]
  exact h.encoded

/-- On an aligned buffer, a loop that ends well has taken whole packets. -/
theorem queueReadLoop_aligned (portIndex length n : Nat) {txFifo : Ring} {rest out : List UInt8}
    (hvalid : ∀ x ∈ packets, ValidPayload x)
    (hstream : txFifo.contents ++ rest = packets.flatMap encode)
    (hok : (queueReadLoop portIndex length n txFifo out).1.status = .ok) :
    ∃ taken left, packets = taken ++ left ∧
      (queueReadLoop portIndex length n txFifo out).1 = .returned (out ++ taken.flatten) ∧
      (queueReadLoop portIndex length n txFifo out).2.contents ++ rest =
        left.flatMap encode := by
  induction n generalizing txFifo out packets with
  | zero => exact ⟨[], packets, rfl, by simp [queueReadLoop], hstream⟩
  | succ n ih =>
    rw [queueReadLoop] at hok ⊢
    by_cases hmore : out.length < length ∧ 0 < txFifo.size
    · rw [if_pos hmore] at hok ⊢
      by_cases hcount : 2 ≤ txFifo.contents.count frameDelimiter
      · have hcomplete : ¬ ¬ txFifo.hasCompleteFrame = true := not_not_intro (by simpa)
        rw [if_neg hcomplete] at hok ⊢
        rcases txFifo.readFrame_step portIndex hcount with
          ⟨-, hread | ⟨hread, hdecode⟩⟩ | ⟨d, hstep, hread, hdecode⟩
        · simp only [hread, ne_eq, reduceCtorEq, not_false_eq_true, if_true] at hok
        · simp only [hread, hdecode, ne_eq, reduceCtorEq, not_true_eq_false, if_false,
            not_false_eq_true, if_true] at hok
        · simp only [hread, hdecode, ne_eq, not_true_eq_false, if_false] at hok ⊢
          by_cases hshort : length - out.length < d.length
          · rw [if_pos hshort] at hok
            exact absurd hok (by simp)
          · rw [if_neg hshort] at hok ⊢
            obtain ⟨taken, left, rfl, htaken, hleft⟩ :=
              steps_aligned hvalid hstream (.single hstep)
            obtain rfl : [d] = taken :=
              List.map_injective_iff.2 (Option.some_injective _) htaken
            have hvalid' : ∀ x ∈ left, ValidPayload x :=
              fun x hx => hvalid x (List.mem_append_right _ hx)
            obtain ⟨taken, left', rfl, hreply, hfifo⟩ :=
              ih hvalid' hleft hok
            exact ⟨d :: taken, left', rfl, by rw [hreply]; simp, hfifo⟩
      · have hcomplete : ¬ txFifo.hasCompleteFrame = true := by simpa using hcount
        rw [if_pos hcomplete]
        exact ⟨[], packets, rfl, by simp, hstream⟩
    · rw [if_neg hmore]
      exact ⟨[], packets, rfl, by simp, hstream⟩

theorem Outstanding.queueRead (h : Outstanding port packets) (portIndex length n : Nat)
    (hok : (queueReadLoop portIndex length n port.txFifo []).1.status = .ok) :
    ∃ taken left, packets = taken ++ left ∧
      (queueReadLoop portIndex length n port.txFifo []).1 = .returned taken.flatten ∧
      Outstanding { port with txFifo := (queueReadLoop portIndex length n port.txFifo []).2 }
        left := by
  obtain ⟨taken, left, rfl, hreply, hfifo⟩ :=
    queueReadLoop_aligned portIndex length n h.valid h.encoded hok
  exact ⟨taken, left, rfl, hreply, fun x hx => h.valid x (List.mem_append_right _ hx), hfifo⟩

/-- A `queueRead` that succeeds had its pointers. -/
theorem queueRead_args {d : Driver} {p : PortIndex} {data : OutBuffer} {ptr : Ptr}
    (h : (queueRead d p data ptr).1.status = .ok) : ¬ (ptr = .null ∨ data.missing) := by
  intro hnull
  rw [queueRead, onPort_out, if_pos hnull] at h
  exact absurd h (by simp [Reply.code])

/-! ## Runs -/

theorem outstanding_of_run {start d : Driver} {es : List Event} (hstart : FreshlyReset start)
    (hrun : Run Call.IsModeledTransmit start es d) (p : PortIndex)
    (hok : ∀ reply ∈ queueReads p es, reply.status = .ok) :
    ∃ (batches : List (List (List UInt8))) (packets : List (List UInt8)),
      accepted Call.written p es = batches.flatten ++ packets ∧
      queueReads p es = batches.map (fun batch => Reply.returned batch.flatten) ∧
      (∀ x ∈ accepted Call.written p es, ValidPayload x) ∧ Outstanding (d.ports p) packets := by
  induction hrun with
  | nil =>
    obtain ⟨hfifo, -, -, hqueue, -⟩ := hstart.contents p
    exact ⟨[], [], rfl, rfl, by simp [accepted], by simp, by simp [hfifo, hqueue]⟩
  | @snoc es d hprev m c hc ih =>
    have hready := hprev.ready hstart.ready
    rw [queueReads_snoc] at hok
    obtain ⟨batches, packets, hacc, hreads, hvalid, hout⟩ :=
      ih fun reply hreply => hok reply (List.mem_append_left _ hreply)
    rw [accepted_snoc, queueReads_snoc, hreads]
    cases c with
    | write portIndex data ptr =>
      have hnone : queueReads p [⟨d, m, .write portIndex data ptr⟩] = [] := rfl
      rw [hnone, List.append_nil, accepted_write hready]
      show ∃ batches' packets', _ ∧ _ ∧ _ ∧
        Outstanding ((write d portIndex data ptr).2.ports p) packets'
      rw [write_port hready]
      split_ifs
      · refine ⟨batches, _, by rw [hacc, List.append_assoc], rfl, ?_, hout.write p data⟩
        exact List.forall_mem_append.2
          ⟨hvalid, (enqueuePacket_packet p (d.ports p).txQueue data).2.1⟩
      · rw [List.append_nil]
        exact ⟨batches, packets, hacc, rfl, hvalid, hout⟩
    | pollPort portIndex =>
      have hnone : queueReads p [⟨d, m, .pollPort portIndex⟩] = [] := rfl
      rw [hnone, accepted_other rfl, List.append_nil, List.append_nil]
      show ∃ batches' packets', _ ∧ _ ∧ _ ∧
        Outstanding ((pollPort d portIndex).2.ports p) packets'
      rw [pollPort_port hready]
      split_ifs
      · exact ⟨batches, packets, hacc, rfl, hvalid, hout.poll⟩
      · exact ⟨batches, packets, hacc, rfl, hvalid, hout⟩
    | queueRead portIndex data ptr =>
      rw [accepted_other rfl, List.append_nil]
      show ∃ batches' packets', _ ∧ _ ∧ _ ∧
        Outstanding ((queueRead d portIndex data ptr).2.ports p) packets'
      rw [queueRead_port hready]
      by_cases hp : portIndex = p
      · subst hp
        have hlast : queueReads p [⟨d, m, .queueRead p data ptr⟩] =
            [(queueRead d p data ptr).1] := by
          rw [queueReads_event, if_pos rfl]
        have hstatus := hok (queueRead d p data ptr).1
          (List.mem_append_right _ (hlast ▸ List.mem_singleton_self _))
        have hargs := queueRead_args hstatus
        rw [queueRead_reply hready p data hargs] at hstatus hlast
        obtain ⟨taken, left, rfl, hreply, hout'⟩ := hout.queueRead p data.length _ hstatus
        rw [if_pos ⟨rfl, hargs⟩, hlast, hreply]
        exact ⟨batches ++ [taken], left, by simp [hacc], by simp, hvalid, hout'⟩
      · rw [if_neg fun h => hp h.1, queueReads_event, if_neg hp, List.append_nil]
        exact ⟨batches, packets, hacc, rfl, hvalid, hout⟩
    | _ => exact hc.elim

/-- **The modeled transmit path preserves the packet stream.** When no `queueRead` on the port
failed, the accepted packets are those that the `queueRead` calls returned, whole and in order,
followed by those whose encodings fill `tx_fifo` and `tx_queue`. -/
theorem modeledTransmit_preserves {start d : Driver} {es : List Event}
    (hstart : FreshlyReset start) (hrun : Run Call.IsModeledTransmit start es d) (p : PortIndex)
    (hok : ∀ reply ∈ queueReads p es, reply.status = .ok) :
    ∃ (batches : List (List (List UInt8))) (packets : List (List UInt8)),
      accepted Call.written p es = batches.flatten ++ packets ∧
      queueReads p es = batches.map (fun batch => Reply.returned batch.flatten) ∧
      (∀ x ∈ accepted Call.written p es, ValidPayload x) ∧
      (d.ports p).txFifo.contents ++ (d.ports p).txQueue.contents = packets.flatMap encode := by
  obtain ⟨batches, packets, hacc, hreads, hvalid, hout⟩ := outstanding_of_run hstart hrun p hok
  exact ⟨batches, packets, hacc, hreads, hvalid, hout.encoded⟩

theorem modeledTransmit_preserves_onePacket : ∃ es d,
    Run Call.IsModeledTransmit (resetState .zero) es d ∧
      queueReads 0 es = [.returned [1, 0x7E]] ∧
      ∃ (batches : List (List (List UInt8))) (packets : List (List UInt8)),
        [[1, 0x7E], [5]] = batches.flatten ++ packets ∧
        (d.ports 0).txFifo.contents ++ (d.ports 0).txQueue.contents =
          packets.flatMap encode := by
  have hnil : Run Call.IsModeledTransmit (resetState .zero) [] _ := .nil
  have hrun := (((hnil.snoc default (.write 0 (.bytes [1, 0x7E]) .valid) trivial).snoc
    default (.pollPort 0) trivial).snoc default (.queueRead 0 ⟨.valid, 9⟩ .valid) trivial).snoc
    default (.write 0 (.bytes [5]) .valid) trivial
  obtain ⟨batches, packets, hacc, -, -, hencoded⟩ :=
    modeledTransmit_preserves ⟨.zero, .inl rfl⟩ hrun 0 (by decide +kernel)
  exact ⟨_, _, hrun, by decide +kernel, batches, packets,
    Eq.trans (by decide +kernel) hacc, hencoded⟩

end Xr17v358
