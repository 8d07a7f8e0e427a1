import SerialDriver.FrameScans
import SerialDriver.ModeledReceive
import SerialDriver.ModeledTransmit

/-!
# The pace of polling

A poll moves 256 bytes in each direction, or what is left. Packets that were handed to a freshly
reset port therefore reach `tx_fifo` and `rx_fifo` at a known pace (`Paced`), which decides what
the two counters return and at which poll a message is first ready (`pollPort_paces`).
-/

namespace Xr17v358

/-- The calls that hand a packet to the driver. -/
def Call.IsSubmission : Call → Prop
  | write .. | receive .. => True
  | _ => False

/-- The driver after `k` polls of a port. -/
def polled (d : Driver) (p : PortIndex) : Nat → Driver
  | 0 => d
  | k + 1 => (pollPort (polled d p k) p).2

/-- The number of packets whose encodings, one behind the other, end within `n` bytes. -/
def encodedWithin (packets : List (List UInt8)) (n : Nat) : Nat :=
  (List.range packets.length).countP fun i =>
    ((packets.take (i + 1)).map fun x => (encode x).length).sum ≤ n

theorem encodedWithin_eq (packets : List (List UInt8)) (n : Nat) :
    Blocks.within (packets.map encode) 0 n = encodedWithin packets n := by
  unfold Blocks.within encodedWithin
  rw [List.length_map]
  refine List.countP_congr fun i _ => ?_
  rw [← List.map_take, List.length_flatten, List.map_map]
  simp [Function.comp_def]

/-! ## One ring behind another -/

/-- A transfer of a block moves the cut in a stream by a block. -/
theorem transferRingBytes_take {source destination : Ring} {s : List UInt8} {n : Nat}
    (hsource : source.contents = s.drop n) (hdestination : destination.contents = s.take n)
    (hcapacity : s.length ≤ destination.capacity) (maxBytes : Nat) :
    (transferRingBytes source destination maxBytes).2.1.contents = s.drop (n + maxBytes) ∧
      (transferRingBytes source destination maxBytes).2.2.contents = s.take (n + maxBytes) := by
  obtain ⟨-, -, -, hs, hd⟩ := transferRingBytes_spec source destination maxBytes
  have hcount : transferCount source destination maxBytes = min maxBytes (s.drop n).length := by
    rw [transferCount, Ring.room, hsource, hdestination, List.length_drop, List.length_take]
    omega
  rw [hs, hd, hcount, hsource, hdestination]
  refine ⟨?_, ?_⟩
  · rw [← List.drop_drop, ← List.drop_eq_drop_min]
  · rw [List.take_add, ← List.take_eq_take_min]

/-- The streams of a port, with `n` bytes of each moved or, of a shorter one, all. -/
structure Paced (port : Port) (tx rx : List UInt8) (n : Nat) : Prop where
  txQueue : port.txQueue.contents = tx.drop n
  txFifo : port.txFifo.contents = tx.take n
  rxPending : port.rxPending.contents = rx.drop n
  rxFifo : port.rxFifo.contents = rx.take n

theorem Paced.poll {port : Port} {tx rx : List UInt8} {n : Nat} (h : Paced port tx rx n)
    (hs : port.Sized) (htx : tx.length ≤ ringBufferStorageCapacity)
    (hrx : rx.length ≤ ringBufferStorageCapacity) :
    Paced (stageRxBytesFromPending (flushTxQueueToModeledFifo port).2).2 tx rx
      (n + fifoCapacity) := by
  obtain ⟨htxQueue, htxFifo⟩ :=
    transferRingBytes_take h.txQueue h.txFifo (hs.txFifo ▸ htx) fifoCapacity
  obtain ⟨hrxPending, hrxFifo⟩ :=
    transferRingBytes_take h.rxPending h.rxFifo (hs.rxFifo ▸ hrx) fifoCapacity
  rw [stageRxBytesFromPending_snd, flushTxQueueToModeledFifo_snd]
  exact ⟨htxQueue, htxFifo, hrxPending, hrxFifo⟩

/-! ## Runs -/

variable {start d : Driver} {es : List Event}

/-- Packets accepted and not polled for yet. -/
theorem paced_of_submissions (hstart : FreshlyReset start)
    (hrun : Run Call.IsSubmission start es d) (p : PortIndex) :
    (∀ x ∈ accepted Call.written p es, ValidPayload x) ∧
      (∀ x ∈ accepted Call.received p es, ValidPayload x) ∧
      Paced (d.ports p) ((accepted Call.written p es).flatMap encode)
        ((accepted Call.received p es).flatMap encode) 0 := by
  induction hrun with
  | nil =>
    obtain ⟨htxFifo, hrxFifo, hrxPending, htxQueue, -⟩ := hstart.contents p
    exact ⟨by simp [accepted], by simp [accepted], htxQueue, htxFifo, hrxPending, hrxFifo⟩
  | @snoc es d hprev m c hc ih =>
    have hready := hprev.ready hstart.ready
    obtain ⟨hwritten, hreceived, htxQueue, htxFifo, hrxPending, hrxFifo⟩ := ih
    rw [accepted_snoc, accepted_snoc]
    cases c with
    | write portIndex data ptr =>
      obtain ⟨-, hvalid, hcontents⟩ := enqueuePacket_packet p (d.ports p).txQueue data
      rw [@accepted_other Call.received _ rfl, List.append_nil, accepted_write hready]
      show _ ∧ _ ∧ Paced ((write d portIndex data ptr).2.ports p) _ _ 0
      rw [write_port hready]
      split_ifs
      · refine ⟨?_, hreceived, ?_, htxFifo, hrxPending, hrxFifo⟩
        · exact List.forall_mem_append.2 ⟨hwritten, hvalid⟩
        · rw [List.flatMap_append, List.drop_zero, hcontents, htxQueue, List.drop_zero]
      · rw [List.append_nil]
        exact ⟨hwritten, hreceived, htxQueue, htxFifo, hrxPending, hrxFifo⟩
    | receive portIndex data ptr =>
      obtain ⟨-, hvalid, hcontents⟩ := enqueuePacket_packet p (d.ports p).rxPending data
      rw [@accepted_other Call.written _ rfl, List.append_nil, accepted_receive hready]
      show _ ∧ _ ∧ Paced ((receive d portIndex data ptr).2.ports p) _ _ 0
      rw [receive_port hready]
      split_ifs
      · refine ⟨hwritten, ?_, htxQueue, htxFifo, ?_, hrxFifo⟩
        · exact List.forall_mem_append.2 ⟨hreceived, hvalid⟩
        · rw [List.flatMap_append, List.drop_zero, hcontents, hrxPending, List.drop_zero]
      · rw [List.append_nil]
        exact ⟨hwritten, hreceived, htxQueue, htxFifo, hrxPending, hrxFifo⟩
    | _ => exact hc.elim

theorem polled_ready (hd : d.Ready) (p : PortIndex) (k : Nat) : (polled d p k).Ready := by
  induction k with
  | zero => exact hd
  | succ k ih => exact pollPort_ready ((ensureStateInitialized_of_ready ih).symm ▸ ih) p

/-- Each poll moves one block more. -/
theorem paced_polled {p : PortIndex} {tx rx : List UInt8} (hd : d.Ready)
    (h : Paced (d.ports p) tx rx 0) (k : Nat) :
    Paced ((polled d p k).ports p) tx rx (fifoCapacity * k) := by
  have htx : tx.length ≤ ringBufferStorageCapacity := by
    have hqueue := (d.ports p).txQueue.length_le
    rwa [h.txQueue, (hd.sized p).txQueue, List.drop_zero] at hqueue
  have hrx : rx.length ≤ ringBufferStorageCapacity := by
    have hpending := (d.ports p).rxPending.length_le
    rwa [h.rxPending, (hd.sized p).rxPending, List.drop_zero] at hpending
  induction k with
  | zero => exact h
  | succ k ih =>
    have hready := polled_ready hd p k
    rw [polled, pollPort_port hready, if_pos rfl, Nat.mul_succ]
    exact ih.poll (hready.sized p) htx hrx

/-! ## What the calls report -/

theorem queueSize_eq (hd : d.Ready) (p : PortIndex) :
    (queueSize d p).1 = frameCount (d.ports p).txFifo.contents := by
  rw [queueSize, onPort_out, ensureStateInitialized_of_ready hd, Ring.frameCount_eq]

theorem fifoLevel_eq (hd : d.Ready) (p : PortIndex) :
    (fifoLevel d p).1 = frameCount (d.ports p).rxFifo.contents := by
  rw [fifoLevel, onPort_out, ensureStateInitialized_of_ready hd, Ring.frameCount_eq]

/-- The front of a stream of encodings holds a complete frame once the first of them is in it. -/
theorem two_le_count_front {x : List UInt8} {packets : List (List UInt8)}
    (hvalid : ∀ y ∈ x :: packets, ValidPayload y) (n : Nat) :
    2 ≤ (((x :: packets).flatMap encode).take n).count frameDelimiter ↔ (encode x).length ≤ n := by
  rw [complete_aligned hvalid (List.take_append_drop n _)]
  constructor
  · rintro ⟨y, hy, hpre⟩
    obtain rfl : x = y := Option.some.inj hy
    exact hpre.length_le.trans (List.length_take_le ..)
  · intro hn
    refine ⟨x, rfl, ?_⟩
    rw [List.flatMap_cons, List.take_append, List.take_of_length_le hn]
    exact List.prefix_append ..

theorem pollPort_messageReady_iff (hd : d.Ready) (p : PortIndex) :
    (pollPort d p).1 = .code .messageReady ↔
      2 ≤ ((pollPort d p).2.ports p).rxFifo.contents.count frameDelimiter := by
  rw [pollPort_reply hd]
  split_ifs with hcount
  · exact iff_of_true rfl hcount
  · exact iff_of_false (by simp [Reply.code]) hcount

/-- **The pace of polling is exact.** After packets are accepted on a freshly reset port and `k`
polls, `256 * k` bytes of the encodings have moved, or all; the counters return how many encodings
have moved whole, and the next poll reports a message as soon as the first one has. -/
theorem pollPort_paces (hstart : FreshlyReset start) (hrun : Run Call.IsSubmission start es d)
    (p : PortIndex) (k : Nat) :
    let tx := (accepted Call.written p es).flatMap encode
    ((polled d p k).ports p).txFifo.contents = tx.take (min (256 * k) tx.length) ∧
    ((polled d p k).ports p).txQueue.contents = tx.drop (min (256 * k) tx.length) ∧
    (queueSize (polled d p k) p).1 = encodedWithin (accepted Call.written p es) (256 * k) ∧
    (fifoLevel (polled d p k) p).1 = encodedWithin (accepted Call.received p es) (256 * k) ∧
    ∀ r₁ rs, accepted Call.received p es = r₁ :: rs →
      ((pollPort (polled d p k) p).1 = .code .messageReady ↔
        (encode r₁).length ≤ 256 * (k + 1)) := by
  obtain ⟨hwritten, hreceived, hpaced⟩ := paced_of_submissions hstart hrun p
  have hd := hrun.ready hstart.ready
  have hready := polled_ready hd p k
  have hk : Paced ((polled d p k).ports p) _ _ (256 * k) := paced_polled hd hpaced k
  refine ⟨?_, ?_, ?_, ?_, ?_⟩
  · rw [hk.txFifo, ← List.take_eq_take_min]
  · rw [hk.txQueue, ← List.drop_eq_drop_min]
  · rw [queueSize_eq hready, hk.txFifo, ← encodedWithin_eq]
    exact frameCountFrom_front hwritten _ false
  · rw [fifoLevel_eq hready, hk.rxFifo, ← encodedWithin_eq]
    exact frameCountFrom_front hreceived _ false
  · intro r₁ rs hrs
    have hnext : Paced ((pollPort (polled d p k) p).2.ports p) _ _ (256 * (k + 1)) :=
      paced_polled hd hpaced (k + 1)
    rw [hrs] at hreceived
    rw [pollPort_messageReady_iff hready, hnext.rxFifo, hrs, two_le_count_front hreceived]

/-- An encoding of 257 bytes: the first poll leaves its closing delimiter behind. -/
theorem pollPort_paces_cutFrame : ∃ es d, Run Call.IsSubmission (resetState .zero) es d ∧
    ((polled d 0 1).ports 0).txQueue.contents = [0x7E] ∧ (queueSize (polled d 0 1) 0).1 = 0 ∧
      (queueSize (polled d 0 2) 0).1 = 1 ∧
      (pollPort (polled d 0 0) 0).1 = .code .messageReady := by
  have hnil : Run Call.IsSubmission (resetState .zero) [] _ := .nil
  have hrun := (hnil.snoc default
    (.write 0 (.bytes (List.replicate 255 0x01)) .valid) trivial).snoc default
    (.receive 0 (.bytes [0x05]) .valid) trivial
  obtain ⟨es, d, hrun, hwritten, hreceived⟩ : ∃ es d,
      Run Call.IsSubmission (resetState .zero) es d ∧
        accepted Call.written 0 es = [List.replicate 255 0x01] ∧
        accepted Call.received 0 es = [[0x05]] :=
    ⟨_, _, hrun, by decide +kernel, by decide +kernel⟩
  have hpaces := pollPort_paces ⟨.zero, .inl rfl⟩ hrun 0
  rw [hwritten, hreceived] at hpaces
  obtain ⟨-, hqueue, hfirst, -⟩ := hpaces 1
  obtain ⟨-, -, hsecond, -⟩ := hpaces 2
  obtain ⟨-, -, -, -, hready⟩ := hpaces 0
  refine ⟨es, d, hrun, hqueue.trans ?_, hfirst.trans ?_, hsecond.trans ?_, ?_⟩
  · decide +kernel
  · decide +kernel
  · decide +kernel
  · exact (hready [0x05] [] rfl).2 (by decide)

end Xr17v358
