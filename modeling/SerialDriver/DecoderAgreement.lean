import SerialDriver.QueueRefinement
import SerialDriver.PortEffects

/-!
# The two decoders agree

Payloads are taken out of frames in two loops: the receive path decodes `rx_fifo` into `rx_queue`
and hands bytes out from there, and `xr17v358_queue_read` decodes `tx_fifo` straight into the
caller's buffer. On the same bytes, with room enough, they take the same payloads and stop at the
same place (`takePackets_eq_decodeFrames`). What a test reads back with the one is what a receiver
gets from the other (`decoders_agree`).
-/

namespace Xr17v358

/-! ## The loops -/

/-- A payload and what is left behind its frame are shorter than what there was. -/
theorem length_nextFrame_payload {q q' : Queue} {data : List UInt8}
    (h : nextFrame q = some (some data, q')) :
    data.length + q'.items.length + 1 < q.items.length :=
  (length_payload_lt (nextFrame_eq_some_iff.1 h).1).1

/-- **With room for all, the two loops are one.** What one has put in its queue the other has put in
its buffer. -/
theorem takePackets_eq_decodeFrames {fifo queue : Queue} {length : Nat}
    (hroom : fifo.items.length ≤ queue.room)
    (hlength : fifo.items.length + queue.items.length ≤ length) :
    (takePackets length fifo queue.items).1.status = (decodeFrames fifo queue).1 ∧
      (takePackets length fifo queue.items).1.data = (decodeFrames fifo queue).2.2.items ∧
      (takePackets length fifo queue.items).2 = (decodeFrames fifo queue).2.1 ∧
      (decodeFrames fifo queue).2.2.items.length ≤ fifo.items.length + queue.items.length := by
  induction hn : fifo.items.length using Nat.strong_induction_on generalizing fifo queue with
  | _ n ih =>
    rw [takePackets_eq, decodeFrames_eq]
    cases hnext : nextFrame fifo with
    | none =>
      split_ifs <;> exact ⟨rfl, rfl, rfl, Nat.le_add_left ..⟩
    | some out =>
      obtain ⟨item, fifo'⟩ := out
      have hless := length_nextFrame_lt hnext
      rw [if_pos (by omega), if_neg (by omega)]
      cases item with
      | none => exact ⟨rfl, rfl, rfl, Nat.le_add_left ..⟩
      | some data =>
        have hpayload := length_nextFrame_payload hnext
        have hpush : (queue.push data).2.items = queue.items ++ data := by
          show queue.items ++ data.take queue.room = _
          rw [List.take_of_length_le (by omega)]
        have hleft : (queue.push data).2.room = queue.room - data.length := by
          show queue.capacity - (queue.push data).2.items.length = _
          rw [hpush, List.length_append, BoundedFifo.room, Nat.sub_add_eq]
        dsimp only
        rw [if_neg (by omega), if_neg (by omega), ← hpush]
        obtain ⟨hstatus, hdata, hrest, hshort⟩ := @ih _ (hn ▸ hless) fifo' (queue.push data).2
          (by omega) (by rw [hpush, List.length_append]; omega) rfl
        rw [hpush, List.length_append] at hshort
        exact ⟨hstatus, hdata, hrest, hshort.trans (by omega)⟩

/-- A read that starts with nothing decoded, and a large buffer filled from the same bytes. -/
theorem read_takePackets {q : PortQueues} (hempty : q.rxQueue.items = [])
    (hroom : q.rxFifo.items.length ≤ q.rxQueue.capacity) {length length' : Nat}
    (hlength : q.rxFifo.items.length ≤ length) (hlength' : q.rxFifo.items.length ≤ length') :
    let taken := takePackets length' q.rxFifo []
    taken.2.items = (q.read length).2.rxFifo.items ∧
      taken.1.data = (q.read length).1.data ++ (q.read length).2.rxQueue.items ∧
      ((q.read length).1.status = .ok → taken.1.data = (q.read length).1.data) ∧
      (q.read length).1.status =
        if taken.1.status = .ok ∧ taken.1.data = [] ∧ taken.2.items ≠ [] then .errorInvalidFrame
        else taken.1.status := by
  intro taken
  obtain ⟨hstatus, hdata, hrest, hshort⟩ := @takePackets_eq_decodeFrames q.rxFifo q.rxQueue length'
    (by rw [BoundedFifo.room, hempty]; exact hroom) (by rw [hempty]; exact hlength')
  rw [hempty] at hstatus hdata hrest
  rw [hempty, List.length_nil, Nat.add_zero] at hshort
  change taken.1.status = _ at hstatus
  change taken.1.data = _ at hdata
  change taken.2 = _ at hrest
  rw [hstatus, hdata, hrest]
  unfold PortQueues.read
  generalize decodeFrames q.rxFifo q.rxQueue = out at hshort
  obtain ⟨e, rxFifo, rxQueue⟩ := out
  dsimp only at hshort ⊢
  by_cases he : e = .ok
  · subst he
    rw [if_neg (by simp)]
    by_cases hidle : rxQueue.items = [] ∧ rxFifo.items ≠ []
    · rw [if_pos hidle, if_pos ⟨rfl, hidle⟩]
      exact ⟨rfl, rfl, fun h => absurd h (by simp [Reply.code]), rfl⟩
    · have hall : rxQueue.items.take length = rxQueue.items := List.take_of_length_le (by omega)
      rw [if_neg hidle, if_neg fun h => hidle h.2]
      exact ⟨rfl, (List.take_append_drop ..).symm, fun _ => hall.symm, rfl⟩
  · rw [if_pos he, if_neg fun h => he h.1]
    exact ⟨rfl, rfl, fun h => absurd h he, rfl⟩

/-! ## The functions -/

variable {d d' : Driver}

theorem valid_args (length : Nat) : ¬ (Ptr.valid = .null ∨ (OutBuffer.mk .valid length).missing) := by
  simp [OutBuffer.missing]

/-- A read, on the queues of its port. -/
theorem read_onQueues (hd : d.Ready) (p : PortIndex) (length : Nat) :
    ((read d p ⟨.valid, length⟩ .valid).1, ((read d p ⟨.valid, length⟩ .valid).2.ports p).queues) =
      (d.ports p).queues.read length := by
  rw [read_reply hd p _ (valid_args length), read_port hd, if_pos ⟨rfl, valid_args length⟩]
  exact readFromStagedRx_queues p (d.ports p) length

theorem queueRead_onQueues (hd : d.Ready) (p : PortIndex) (length : Nat) :
    ((queueRead d p ⟨.valid, length⟩ .valid).1,
        ((queueRead d p ⟨.valid, length⟩ .valid).2.ports p).txFifo.queue) =
      takePackets length (d.ports p).txFifo.queue [] := by
  rw [queueRead_reply hd p _ (valid_args length), queueRead_port hd,
    if_pos ⟨rfl, valid_args length⟩]
  exact queueReadLoop_queue p length (d.ports p).txFifo.size_eq.ge []

/-- **The two decoders agree.** A read of a port with nothing decoded, and a `queueRead` of a port
whose `tx_fifo` holds the same bytes, both with a large enough buffer: they leave the same bytes
undecoded, and the read has put in the caller's buffer or in `rx_queue` what the other has put in
its caller's buffer. They report the same, except that a read fails when it has nothing to return and
bytes are left, which hold no complete frame. -/
theorem decoders_agree (hd : d.Ready) (hd' : d'.Ready) (p p' : PortIndex) {length length' : Nat}
    (hsame : (d'.ports p').txFifo.contents = (d.ports p).rxFifo.contents)
    (hempty : (d.ports p).rxQueue.contents = [])
    (hlength : (d.ports p).rxFifo.contents.length ≤ length)
    (hlength' : (d.ports p).rxFifo.contents.length ≤ length') :
    let r := read d p ⟨.valid, length⟩ .valid
    let q := queueRead d' p' ⟨.valid, length'⟩ .valid
    (q.2.ports p').txFifo.contents = (r.2.ports p).rxFifo.contents ∧
      q.1.data = r.1.data ++ (r.2.ports p).rxQueue.contents ∧
      (r.1.status = .ok → q.1.data = r.1.data) ∧
      r.1.status =
        if q.1.status = .ok ∧ q.1.data = [] ∧ (q.2.ports p').txFifo.contents ≠ [] then
          .errorInvalidFrame
        else q.1.status := by
  intro r q
  have hread : (r.1, (r.2.ports p).queues) = _ := read_onQueues hd p length
  have htaken : (q.1, (q.2.ports p').txFifo.queue) = _ := queueRead_onQueues hd' p' length'
  have hqueue : (d'.ports p').txFifo.queue = (d.ports p).queues.rxFifo :=
    Ring.queue_eq ((hd'.sized p').txFifo.trans (hd.sized p).rxFifo.symm) hsame
  have hroom : (d.ports p).rxFifo.contents.length ≤ (d.ports p).rxQueue.capacity := by
    rw [(hd.sized p).rxQueue, ← (hd.sized p).rxFifo]
    exact (d.ports p).rxFifo.length_le
  have hagree := @read_takePackets (d.ports p).queues hempty hroom _ _ hlength hlength'
  rwa [← hread, ← hqueue, ← htaken] at hagree

/-- A frame, a stray byte, and a frame with a malformed escape. -/
theorem decoders_agree_malformed :
    (queueRead (injectTxFrameBytes .zero 0 (.bytes [0x7E, 1, 0x7E, 9, 0x7E, 0x7D, 0x7E]) .valid).2 0
        ⟨.valid, 7⟩ .valid).1.data =
      (read (injected [0x7E, 1, 0x7E, 9, 0x7E, 0x7D, 0x7E]) 0 ⟨.valid, 7⟩ .valid).1.data ++
        ((read (injected [0x7E, 1, 0x7E, 9, 0x7E, 0x7D, 0x7E]) 0 ⟨.valid, 7⟩
          .valid).2.ports 0).rxQueue.contents := by
  have hready := injectTxFrameBytes_ready (reachable_ensure_ready ⟨[], .nil⟩) 0
    (.bytes [0x7E, 1, 0x7E, 9, 0x7E, 0x7D, 0x7E]) .valid
  exact (decoders_agree (ready_injected _) hready 0 0 (by decide +kernel) (by decide +kernel)
    (by decide +kernel) (by decide +kernel)).2.1

end Xr17v358
