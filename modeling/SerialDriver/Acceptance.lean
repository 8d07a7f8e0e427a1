import SerialDriver.PortEffects

/-!
# Packets are accepted whole or not at all

`write`, `writeHw` and `receive` take a packet in the same way: they report either all of it or
nothing, and which of the two depends on the packet's length and on the room its frame needs
(`Accepts`). A packet that is taken goes to the back of one ring as a whole frame, and a packet that
is declined leaves no trace (`packets_all_or_nothing`).
-/

namespace Xr17v358

/-- A packet that can be sent in one frame, and a ring with room for that frame: the two delimiters,
the payload, and one byte more for each byte that is escaped. -/
def Accepts (ring : Ring) (data : List UInt8) : Prop :=
  1 ≤ data.length ∧ data.length ≤ queueCapacity ∧
    ring.size + (2 + data.length + data.countP requiresEscape) ≤ ring.capacity

instance (ring : Ring) (data : List UInt8) : Decidable (Accepts ring data) :=
  inferInstanceAs (Decidable (_ ∧ _ ∧ _))

theorem accepts_iff {ring : Ring} {data : List UInt8} :
    Accepts ring data ↔ ValidPayload data ∧ (encode data).length ≤ ring.room := by
  unfold Accepts
  rw [Ring.size_eq, ← and_assoc]
  refine and_congr_right ?_
  intro hvalid
  have hfit := ring.length_le
  rw [length_encode_eq hvalid, Ring.room]
  omega

/-- The reply of a call that submits `data` to `ring`: it reports all of the packet or nothing, all
of it exactly when the ring accepts it or there is nothing to accept, and the call's effect is
`taken` or `declined` to match. -/
structure AllOrNothing (ring : Ring) (data : List UInt8) (reply : Reply) (taken declined : Prop) :
    Prop where
  status : reply.status = .ok
  count : reply.count = some data.length ∨ reply.count = some 0
  accepts : reply.count = some data.length ↔ data.length = 0 ∨ Accepts ring data
  taken : reply.count = some data.length → taken
  declined : reply.count = some 0 → declined

variable {ring : Ring} {data : List UInt8} {reply : Reply} {taken declined : Prop}

/-- A packet that goes in. -/
theorem AllOrNothing.of_accepts (h : Accepts ring data) (hreply : reply = .counted data.length)
    (htaken : taken) : AllOrNothing ring data reply taken declined := by
  subst hreply
  have hne : data.length ≠ 0 := Nat.one_le_iff_ne_zero.1 h.1
  exact ⟨rfl, .inl rfl, iff_of_true rfl (.inr h), fun _ => htaken,
    fun hzero => absurd (Option.some.inj hzero) hne⟩

/-- A packet that does not. -/
theorem AllOrNothing.of_not_accepts (h : ¬ Accepts ring data) (hreply : reply = .counted 0)
    (htaken : data = [] → taken) (hdeclined : declined) :
    AllOrNothing ring data reply taken declined := by
  subst hreply
  have hcount : (Reply.counted 0).count = some data.length ↔ data.length = 0 := by
    simp only [Reply.counted, Option.some.injEq]
    exact eq_comm
  exact ⟨rfl, .inr rfl, hcount.trans (or_iff_left h).symm,
    fun hall => htaken (List.eq_nil_of_length_eq_zero (hcount.1 hall)), fun _ => hdeclined⟩

/-- The shared packet step. -/
theorem enqueuePacket_accepts (portIndex : Nat) (ring : Ring) (data : List UInt8) :
    (Accepts ring data ∧ enqueuePacket portIndex ring (.bytes data) =
        (.ok, data.length, (ring.writeBytes (encode data)).2) ∧
        (ring.writeBytes (encode data)).2.contents = ring.contents ++ encode data) ∨
      (¬ Accepts ring data ∧ enqueuePacket portIndex ring (.bytes data) = (.ok, 0, ring)) := by
  rw [accepts_iff, enqueuePacket_eq]
  show (_ ∧ (if ValidPayload data ∧ _ then _ else _) = _ ∧ _) ∨ (_ ∧ (if _ then _ else _) = _)
  by_cases h : ValidPayload data ∧ (encode data).length ≤ ring.room
  · refine .inl ⟨h, if_pos h, ?_⟩
    rw [Ring.contents_writeBytes, List.take_of_length_le h.2]
  · exact .inr ⟨h, if_neg h⟩

/-! ## The three entry points -/

variable {d : Driver} (m : DeviceMemory) (deviceBase : Nat) (p : PortIndex)

/-- The call put this packet at the back of `tx_queue` of a port, and did nothing else. -/
def Event.QueuesTx (e : Event) (p : PortIndex) (data : List UInt8) : Prop :=
  ∃ txQueue, e.after = e.before.set p { e.before.ports p with txQueue := txQueue } ∧
    txQueue.contents = (e.before.ports p).txQueue.contents ++ encode data ∧
    e.memoryAfter = e.memory

/-- The same for `rx_pending`. -/
def Event.QueuesRx (e : Event) (p : PortIndex) (data : List UInt8) : Prop :=
  ∃ rxPending, e.after = e.before.set p { e.before.ports p with rxPending := rxPending } ∧
    rxPending.contents = (e.before.ports p).rxPending.contents ++ encode data ∧
    e.memoryAfter = e.memory

/-- The call put this packet at the back of `tx_queue` of a port, moved a front of that ring to the
port's FIFO window, and did nothing else. -/
def Event.QueuesAndFlushes (e : Event) (deviceBase : Nat) (p : PortIndex) (data : List UInt8) :
    Prop :=
  ∃ flushed txQueue, e.after = e.before.set p { e.before.ports p with txQueue := txQueue } ∧
    flushed ++ txQueue.contents = (e.before.ports p).txQueue.contents ++ encode data ∧
    e.memoryAfter.mem = (e.memory.store (fifoAddress deviceBase p) flushed).mem

/-- The call left every ring, every configuration and the device as they were. -/
def Event.ChangesNothing (e : Event) : Prop := e.after = e.before ∧ e.memoryAfter = e.memory

/-- What `write` and `receive` share: the packet step on one ring, which `store` puts back. -/
theorem queues_all_or_nothing {e : Event} {ring : Ring} {data : List UInt8} {queues : Prop}
    (store : Ring → Port) (hstore : store ring = e.before.ports p)
    (hreply : e.reply = { status := (enqueuePacket p ring (.bytes data)).1,
                          count := some (enqueuePacket p ring (.bytes data)).2.1 })
    (hafter : e.after = e.before.set p (store (enqueuePacket p ring (.bytes data)).2.2))
    (hmemory : e.memoryAfter = e.memory)
    (hqueues : ∀ ring', e.after = e.before.set p (store ring') →
      ring'.contents = ring.contents ++ encode data → queues) :
    AllOrNothing ring data e.reply queues e.ChangesNothing := by
  rcases enqueuePacket_accepts p ring data with ⟨h, hrun, hcontents⟩ | ⟨h, hrun⟩
  · rw [hrun] at hreply hafter
    exact .of_accepts h hreply (hqueues _ hafter hcontents)
  · rw [hrun] at hreply hafter
    have hsame : e.before.set p (store ring) = e.before := by rw [hstore, Driver.set_self]
    refine .of_not_accepts h hreply ?_ ⟨hafter.trans hsame, hmemory⟩
    rintro rfl
    exact hqueues ring hafter (List.append_nil _).symm

theorem write_all_or_nothing (hd : d.Ready) (data : List UInt8) :
    let e : Event := ⟨d, m, .write p (.bytes data) .valid⟩
    AllOrNothing (d.ports p).txQueue data e.reply (e.QueuesTx p data) e.ChangesNothing := by
  intro e
  have hexec : write d p (.bytes data) .valid = _ := onPort_eq hd.isInitialized p
  rw [if_neg (by simp [InBuffer.missing])] at hexec
  exact queues_all_or_nothing p (fun txQueue => { d.ports p with txQueue := txQueue }) rfl
    (congrArg Prod.fst hexec) (congrArg Prod.snd hexec) rfl
    fun txQueue hafter hcontents => ⟨txQueue, hafter, hcontents, rfl⟩

theorem receive_all_or_nothing (hd : d.Ready) (data : List UInt8) :
    let e : Event := ⟨d, m, .receive p (.bytes data) .valid⟩
    AllOrNothing (d.ports p).rxPending data e.reply (e.QueuesRx p data) e.ChangesNothing := by
  intro e
  have hexec : receive d p (.bytes data) .valid = _ := onPort_eq hd.isInitialized p
  rw [if_neg (by simp [InBuffer.missing])] at hexec
  exact queues_all_or_nothing p (fun rxPending => { d.ports p with rxPending := rxPending }) rfl
    (congrArg Prod.fst hexec) (congrArg Prod.snd hexec) rfl
    fun rxPending hafter hcontents => ⟨rxPending, hafter, hcontents, rfl⟩

/-- The flush comes after the packet is in, so it changes nothing about its acceptance. -/
theorem writeHw_all_or_nothing (hd : d.Ready) (data : List UInt8) :
    let e : Event := ⟨d, m, .writeHw (some deviceBase) p (.bytes data) .valid⟩
    AllOrNothing (d.ports p).txQueue data e.reply (e.QueuesAndFlushes deviceBase p data)
      e.ChangesNothing := by
  intro e
  have hexec : writeHw d m (some deviceBase) p (.bytes data) .valid = _ :=
    onPort_eq hd.isInitialized p
  dsimp only at hexec
  rw [if_neg (by simp [InBuffer.missing])] at hexec
  have hreply : e.reply = (writeHw d m (some deviceBase) p (.bytes data) .valid).1.1 := rfl
  have hafter : e.after = (writeHw d m (some deviceBase) p (.bytes data) .valid).2 := rfl
  have hmemory : e.memoryAfter = (writeHw d m (some deviceBase) p (.bytes data) .valid).1.2 := rfl
  rw [hexec] at hreply hafter hmemory
  rcases enqueuePacket_accepts p (d.ports p).txQueue data with ⟨h, hrun, hcontents⟩ | ⟨h, hrun⟩
  · have hne : data.length ≠ 0 := Nat.one_le_iff_ne_zero.1 h.1
    rw [hrun] at hreply hafter hmemory
    simp only [hne, flushTxQueueToHw_eq, ne_eq, not_true_eq_false, or_self, if_false]
      at hreply hafter hmemory
    let port : Port :=
      { d.ports p with txQueue := ((d.ports p).txQueue.writeBytes (encode data)).2 }
    let flushed := port.txQueue.contents.take (flushCount m deviceBase p port)
    refine .of_accepts h hreply ⟨flushed, _, hafter, ?_, ?_⟩
    · rw [Ring.contents_readBytes, ← hcontents]
      exact List.take_append_drop ..
    · have hread : (m.read8 (registerAddress deviceBase p regTxlvl)).2.mem = m.mem := rfl
      rw [hmemory]
      exact DeviceMemory.mem_store_congr hread (fifoAddress deviceBase p) flushed
  · rw [hrun] at hreply hafter hmemory
    have hafter' : e.after = d := hafter.trans (d.set_self p)
    refine .of_not_accepts h hreply ?_ ⟨hafter', hmemory⟩
    rintro rfl
    refine ⟨[], (d.ports p).txQueue, hafter, (List.append_nil _).symm, ?_⟩
    rw [hmemory]
    rfl

/-- **Packets are accepted whole or not at all**, by the same rule at all three entry points. -/
theorem packets_all_or_nothing (h : Reachable d) (hinit : d.isInitialized = true)
    (data : List UInt8) :
    (let e : Event := ⟨d, m, .write p (.bytes data) .valid⟩
     AllOrNothing (d.ports p).txQueue data e.reply (e.QueuesTx p data) e.ChangesNothing) ∧
    (let e : Event := ⟨d, m, .writeHw (some deviceBase) p (.bytes data) .valid⟩
     AllOrNothing (d.ports p).txQueue data e.reply (e.QueuesAndFlushes deviceBase p data)
       e.ChangesNothing) ∧
    (let e : Event := ⟨d, m, .receive p (.bytes data) .valid⟩
     AllOrNothing (d.ports p).rxPending data e.reply (e.QueuesRx p data) e.ChangesNothing) := by
  have hd := h.ready hinit
  exact ⟨write_all_or_nothing m p hd data, writeHw_all_or_nothing m deviceBase p hd data,
    receive_all_or_nothing m p hd data⟩

theorem packets_all_or_nothing_escape :
    let e : Event := ⟨resetState .zero, default, .write 0 (.bytes [1, 0x7E]) .valid⟩
    e.reply.count = some 2 ∧ (e.after.ports 0).txQueue.contents = encode [1, 0x7E] := by
  intro e
  have hreset : Reachable (resetState .zero) := ⟨_, Run.nil.snoc default .resetState trivial⟩
  have hwrite := (packets_all_or_nothing default 0 0 hreset rfl [1, 0x7E]).1
  have hcount : e.reply.count = some 2 := hwrite.accepts.2 (.inr (by decide))
  obtain ⟨txQueue, hafter, hcontents, -⟩ := hwrite.taken hcount
  refine ⟨hcount, ?_⟩
  rw [show e.after = _ from hafter]
  exact hcontents

/-- An empty packet is reported as taken whole, though no ring accepts it. -/
theorem write_emptyPacket :
    Reachable (resetState .zero) ∧ (resetState .zero).isInitialized = true ∧
      (Event.mk (resetState .zero) default (.write 0 (.bytes []) .valid)).reply =
        .counted ([] : List UInt8).length ∧
      ¬ Accepts ((resetState .zero).ports 0).txQueue [] :=
  ⟨⟨_, Run.nil.snoc default .resetState trivial⟩, rfl, by decide +kernel,
    fun h => absurd h.1 (by decide)⟩

end Xr17v358
