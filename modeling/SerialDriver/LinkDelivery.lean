import SerialDriver.Network
import SerialDriver.Wedge

/-!
# A link delivers

On an endless run of `Network`, from freshly reset boards on, whose link is serviced again and again
and never owes more than `rx_queue` can hold, every accepted byte is returned sooner or later, also
while the sender keeps sending (`fair_link_delivers`).

The argument counts bytes. Take the encodings of what was accepted by some moment. As long as one of
their bytes is queued, a flush moves a byte to the line. As long as one of them is on the line, the
receiver stages one, or else `rx_fifo` is full; then it holds a complete frame, and reads return
something until it has room again. Once all are staged, reads return their payloads.
-/

namespace Xr17v358

open Incremental

/-! ## Counters -/

/-- A counter that grows again whenever it is short of a goal reaches it. -/
theorem exists_le_of_progress {f : ℕ → ℕ} {goal n₀ : ℕ}
    (h : ∀ n, n₀ ≤ n → f n < goal → ∃ k, n ≤ k ∧ f n < f k) : ∃ k, n₀ ≤ k ∧ goal ≤ f k := by
  induction hshort : goal - f n₀ using Nat.strong_induction_on generalizing n₀ with
  | _ short ih =>
    by_cases hdone : goal ≤ f n₀
    · exact ⟨n₀, le_rfl, hdone⟩
    · obtain ⟨k, hk, hgrows⟩ := h n₀ le_rfl (not_le.1 hdone)
      obtain ⟨k', hk', hreached⟩ := ih (goal - f k) (by omega) (fun n hn => h n (hk.trans hn)) rfl
      exact ⟨k', hk.trans hk', hreached⟩

/-! ## The receive side of a port -/

variable {port : Port} {stream got : List UInt8}

/-- A port that still owes bytes can make progress. -/
theorem Port.Received.canProgress (h : port.Received stream got)
    (howed : got.length < (delivered stream).length) : port.CanProgress := by
  by_contra hidle
  unfold Port.CanProgress at hidle
  push Not at hidle
  have hbalance := h.balance
  rw [hidle.2, delivered_stuck hidle.1, List.append_nil, List.append_nil] at hbalance
  rw [hbalance] at howed
  exact lt_irrefl _ howed

variable {ds : List (List UInt8)}

/-- The front of encodings delivers something when it is as long as a frame can be. -/
theorem delivered_ne_nil {fifo rest : List UInt8} (hds : ∀ d ∈ ds, ValidPayload d)
    (hstream : fifo ++ rest = ds.flatMap encode) (hlong : maxEncodedByteCount ≤ fifo.length) :
    delivered fifo ≠ [] := by
  cases ds with
  | nil =>
    rw [(List.append_eq_nil_iff.1 hstream).1] at hlong
    exact absurd hlong (by decide)
  | cons d ds =>
    have hd := hds d (List.mem_cons_self ..)
    have hwhole : [d].flatMap encode <+: fifo := by
      rw [List.flatMap_singleton]
      refine List.prefix_of_prefix_length_le ?_ (List.prefix_append fifo rest)
        ((length_encode_le d).trans hlong)
      rw [hstream, List.flatMap_cons]
      exact List.prefix_append ..
    obtain ⟨more, hmore⟩ := flatten_prefix_delivered (by simpa using hd) hwhole
    have hpos := hd.1
    rw [← hmore, List.flatten_singleton]
    intro hnil
    rw [(List.append_eq_nil_iff.1 hnil).1] at hpos
    exact absurd hpos (by simp)

/-- **A read of a port that can make progress returns something**, when it holds the front of
encodings whose payloads fit. -/
theorem aligned_read_ne_nil {rest : List UInt8} (hds : ∀ d ∈ ds, ValidPayload d)
    (hstream : port.rxFifo.contents ++ rest = ds.flatMap encode)
    (hfits : ds.flatten.length ≤ port.rxQueue.room) (hprogress : port.CanProgress)
    (portIndex : Nat) {length : Nat} (hlength : 0 < length) :
    (readFromStagedRx portIndex port length).1.data ≠ [] := by
  obtain ⟨e, queue, rxFifo, rxQueue, hpass, hrun, -⟩ := readFromStagedRx_spec portIndex port length
  obtain ⟨taken, left, rfl, rfl, hsteps, hstuck, rfl, -⟩ := hpass.aligned hds hstream hfits
  have hqueue : port.rxQueue.contents ++ taken.flatten ≠ [] := by
    intro hnil
    obtain ⟨hempty, hnone⟩ := List.append_eq_nil_iff.1 hnil
    obtain rfl : taken = [] := by
      by_contra hne
      have := length_flatten_pos (fun x hx => hds x (List.mem_append_left _ hx)) hne
      simp [hnone] at this
    have hsame : port.rxFifo.contents = rxFifo.contents := (Steps.refl _).rest_unique hsteps
    rw [← hsame, step_eq_none_iff] at hstuck
    rcases hprogress with hcount | hne
    · omega
    · exact hne hempty
  rw [hrun, readReply, if_neg (by simp), if_neg fun h => hqueue h.1]
  exact take_ne_nil hqueue hlength

/-! ## Endless runs -/

variable {κ : Type} [DecidableEq κ] {hears : Wiring κ} {s r : Endpoint κ}

/-- An endless joint run: the networks, and at each moment a call of an application on the hardware
path, its board, and the device memory it finds. -/
structure Behaviour (hears : Wiring κ) where
  net : ℕ → Network κ
  board : ℕ → κ
  memory : ℕ → DeviceMemory
  call : ℕ → Call
  service : ∀ n, (call n).IsService
  carries : ∀ n, (net n).Carries hears ((net n).event (board n) (memory n) (call n))
  next : ∀ n, net (n + 1) = (net n).after hears ((net n).event (board n) (memory n) (call n))

namespace Behaviour

variable (b : Behaviour hears)

def event (n : ℕ) : κ × Event := (b.net n).event (b.board n) (b.memory n) (b.call n)

/-- The events before a moment. -/
def history (n : ℕ) : List (κ × Event) := (List.range n).map b.event

theorem history_succ (n : ℕ) : b.history (n + 1) = b.history n ++ [b.event n] := by
  rw [history, List.range_succ, List.map_append]
  rfl

theorem history_mono {n k : ℕ} (h : n ≤ k) : b.history n <+: b.history k := by
  induction k, h using Nat.le_induction with
  | base => exact List.prefix_rfl
  | succ k _ ih =>
    rw [history_succ]
    exact ih.trans (List.prefix_append ..)

theorem run (n : ℕ) : NetRun hears (b.net 0) (b.history n) (b.net n) := by
  induction n with
  | zero => exact .nil
  | succ n ih =>
    rw [history_succ, b.next]
    exact ih.snoc (b.board n) (b.memory n) (b.call n) (b.service n) (b.carries n)

/-- What the receiver has staged before a moment. -/
def arrived (r : Endpoint κ) (n : ℕ) : List UInt8 := (b.history n).flatMap (stagedAt r)

/-- What has gone onto the line before a moment. -/
def front (r : Endpoint κ) (n : ℕ) : List UInt8 := b.arrived r n ++ (b.net n).line r

/-- The link is serviced again and again: the sender polls when the device has room, the receiver
stages something unless the line is empty or `rx_fifo` full, and it reads. -/
structure Fair (s r : Endpoint κ) : Prop where
  flushes : ∀ n, ∃ k, n ≤ k ∧ b.board k = s.board ∧ ∃ deviceBase,
    b.call k = .pollHwPort (some deviceBase) s.port ∧
      0 < peekLevel (b.memory k) deviceBase s.port regTxlvl
  stages : ∀ n, ∃ k, n ≤ k ∧ ((b.net k).line r ≠ [] → 0 < ((b.net k).port r).rxFifo.room →
    stagedAt r (b.event k) ≠ [])
  reads : ∀ n, ∃ k, n ≤ k ∧ b.board k = r.board ∧ ∃ data : OutBuffer,
    ¬ data.missing ∧ 0 < data.length ∧ (b.call k = .read r.port data .valid ∨
      ∃ deviceBase, b.call k = .readHw (some deviceBase) r.port data .valid)

/-- A link of boards that start fresh, on which no more is ever owed than `rx_queue` can hold. -/
structure Links (s r : Endpoint κ) : Prop where
  fresh : (b.net 0).Fresh
  wired : hears r = some s
  windowed : ∀ n, Windowed s r (b.history n)

variable {n k : ℕ}

theorem arrived_succ (n : ℕ) : b.arrived r (n + 1) = b.arrived r n ++ stagedAt r (b.event n) := by
  rw [arrived, history_succ, List.flatMap_append, List.flatMap_singleton]
  rfl

theorem sent_mono (h : n ≤ k) : sentAt s (b.history n) <+: sentAt s (b.history k) := by
  obtain ⟨rest, hrest⟩ := b.history_mono h
  rw [← hrest, sentAt_append]
  exact List.prefix_append ..

theorem got_mono (h : n ≤ k) : gotAt r (b.history n) <+: gotAt r (b.history k) := by
  obtain ⟨rest, hrest⟩ := b.history_mono h
  rw [← hrest, gotAt_append]
  exact List.prefix_append ..

theorem arrived_mono (h : n ≤ k) : b.arrived r n <+: b.arrived r k := by
  obtain ⟨rest, hrest⟩ := b.history_mono h
  rw [arrived, arrived, ← hrest, List.flatMap_append]
  exact List.prefix_append ..

/-- The line keeps what was sent until it is staged. -/
theorem front_succ (hwired : hears r = some s) (n : ℕ) :
    b.front r (n + 1) = b.front r n ++ emittedAt s (b.event n) := by
  obtain ⟨rest, hrest⟩ := b.carries n r s hwired
  have hline : (b.net (n + 1)).line r = rest := by
    rw [b.next]
    show ((b.net n).line r ++ hears.arriving r _).drop _ = rest
    rw [arriving_eq hwired, ← hrest, List.drop_left]
  rw [front, front, arrived_succ, hline, List.append_assoc, List.append_assoc]
  exact congrArg (b.arrived r n ++ ·) hrest

theorem front_mono (hwired : hears r = some s) (h : n ≤ k) : b.front r n <+: b.front r k := by
  induction k, h using Nat.le_induction with
  | base => exact List.prefix_rfl
  | succ k _ ih =>
    rw [front_succ b hwired]
    exact ih.trans (List.prefix_append ..)

/-! ## The state of a link -/

namespace Links

variable {b} (h : b.Links s r)

include h

theorem ready (n : ℕ) (k : κ) : ((b.net n).boards k).Ready := (b.run n).ready h.fresh k

theorem streamed (n : ℕ) : Streamed (b.net n) s r (sentAt s (b.history n))
    (gotAt r (b.history n)) (b.arrived r n) :=
  streamed_of_run h.fresh h.wired (b.run n) (h.windowed n)

theorem books (n : ℕ) : ∃ inFlight, Books (b.net n) s r (sentAt s (b.history n))
    (gotAt r (b.history n)) inFlight ∧
      inFlight.flatten.length ≤ ((b.net n).port r).rxQueue.room := by
  obtain ⟨inFlight, hbooks⟩ := (h.streamed n).books
  exact ⟨inFlight, hbooks,
    hbooks.fits ((h.ready n r.board).sized r.port) (h.windowed n _ List.prefix_rfl)⟩

/-- What was sent onto the line and what is still queued are the encodings of what was accepted. -/
theorem front_queued (n : ℕ) : b.front r n ++ ((b.net n).port s).txQueue.contents =
    (sentAt s (b.history n)).flatMap encode := by
  rw [front, List.append_assoc]
  exact (h.streamed n).encoded

/-- So the line and the encodings of what was accepted earlier are fronts of one stream. -/
theorem comparable (hk : n ≤ k) : b.front r k <+: (sentAt s (b.history n)).flatMap encode ∨
    (sentAt s (b.history n)).flatMap encode <+: b.front r k := by
  obtain ⟨rest, hrest⟩ := sent_mono (s := s) b hk
  refine List.prefix_or_prefix_of_prefix ⟨_, h.front_queued k⟩ ?_
  rw [← hrest, List.flatMap_append]
  exact List.prefix_append ..

/-! ## Flushing -/

/-- A poll of the sender moves a byte to the line, if there is one. -/
theorem flushed (hboard : b.board n = s.board) {deviceBase : Nat}
    (hcall : b.call n = .pollHwPort (some deviceBase) s.port)
    (hroom : 0 < peekLevel (b.memory n) deviceBase s.port regTxlvl)
    (hqueue : ((b.net n).port s).txQueue.contents ≠ []) : emittedAt s (b.event n) ≠ [] := by
  have hready := h.ready n s.board
  obtain ⟨-, -, hlength⟩ := pollHwPort_emits hready (b.memory n) deviceBase s.port _ rfl
  have hpos := List.length_pos_iff.2 hqueue
  rw [event, Network.event, hboard, hcall, emittedAt, if_pos rfl]
  refine List.length_pos_iff.1 ?_
  rw [hlength, Event.queued, Ring.size_eq]
  exact lt_min (Nat.lt_add_right _ hpos) hroom

/-- **What was accepted goes onto the line.** -/
theorem eventually_emitted (hfair : b.Fair s r) (n : ℕ) :
    ∃ k, n ≤ k ∧ (sentAt s (b.history n)).flatMap encode <+: b.front r k := by
  obtain ⟨k, hk, hreached⟩ := @exists_le_of_progress (fun k => (b.front r k).length)
    ((sentAt s (b.history n)).flatMap encode).length n (by
      intro k hk hshort
      obtain ⟨k', hk', hboard, deviceBase, hcall, hroom⟩ := hfair.flushes k
      have hgrown := (front_mono b h.wired hk').length_le
      by_cases hqueue : ((b.net k').port s).txQueue.contents = []
      · have hall := h.front_queued k'
        rw [hqueue, List.append_nil] at hall
        obtain ⟨rest, hrest⟩ := sent_mono (s := s) b (hk.trans hk')
        rw [← hrest, List.flatMap_append] at hall
        refine ⟨k', hk', hshort.trans_le ?_⟩
        rw [hall, List.length_append]
        exact Nat.le_add_right ..
      · have hemitted := List.length_pos_iff.2 (h.flushed hboard hcall hroom hqueue)
        refine ⟨k' + 1, by omega, ?_⟩
        rw [front_succ b h.wired, List.length_append]
        omega)
  refine ⟨k, hk, ?_⟩
  rcases h.comparable hk with hle | hge
  · rw [hle.eq_of_length_le hreached]
  · exact hge

/-! ## Reading -/

/-- A read of the receiver returns something, if the link owes it. -/
theorem read_progress (hboard : b.board n = r.board) {data : OutBuffer} (hdata : ¬ data.missing)
    (hlength : 0 < data.length)
    (hcall : b.call n = .read r.port data .valid ∨
      ∃ deviceBase, b.call n = .readHw (some deviceBase) r.port data .valid)
    (hprogress : ((b.net n).port r).CanProgress) : gotAt r [b.event n] ≠ [] := by
  obtain ⟨inFlight, hbooks, hfits⟩ := h.books n
  have hready := h.ready n r.board
  have hargs : ¬ (Ptr.valid = .null ∨ data.missing) := by simpa using hdata
  have hline := b.carries n
  rw [event, Network.event, hboard, gotAt, onBoard_self]
  rw [hboard] at hline
  rcases hcall with hcall | ⟨deviceBase, hcall⟩
  · rw [hcall, returned_read hready r.port r.port (b.memory n) rfl, if_pos ⟨rfl, hargs⟩]
    exact aligned_read_ne_nil hbooks.valid hbooks.encoded hfits hprogress r.port hlength
  · rw [hcall] at hline ⊢
    obtain ⟨hqueue, hgrown, rest, hencoded⟩ := hbooks.decodes h.wired hline
      (if_pos ⟨rfl, hargs⟩ : _ = some (stageRxBytesFromHw (b.memory n) deviceBase r.port
        ((b.net n).port r)).2.1)
    rw [returned_readHw hready r.port r.port (b.memory n) rfl, if_pos ⟨rfl, hargs⟩]
    refine aligned_read_ne_nil hbooks.valid hencoded (hqueue ▸ hfits) ?_ r.port hlength
    exact hprogress.imp (fun hcount => hcount.trans (hgrown.sublist.count_le _)) (hqueue ▸ ·)

/-- **What has arrived is returned.** -/
theorem eventually_read (hfair : b.Fair s r) {goal : ℕ} (n : ℕ)
    (hgoal : ∀ k, n ≤ k → goal ≤ (delivered (b.arrived r k)).length) :
    ∃ k, n ≤ k ∧ goal ≤ (gotAt r (b.history k)).length := by
  refine exists_le_of_progress ?_
  intro k hk hshort
  obtain ⟨k', hk', hboard, data, hdata, hlength, hcall⟩ := hfair.reads k
  have hgrown := (got_mono (r := r) b hk').length_le
  by_cases hmore : (gotAt r (b.history k)).length < (gotAt r (b.history k')).length
  · exact ⟨k', hk', hmore⟩
  · have howed : (gotAt r (b.history k')).length < (delivered (b.arrived r k')).length := by
      have := hgoal k' (hk.trans hk')
      omega
    have hread := h.read_progress hboard hdata hlength hcall
      ((h.streamed k').received.canProgress howed)
    have hpos := List.length_pos_iff.2 hread
    refine ⟨k' + 1, by omega, ?_⟩
    rw [history_succ, gotAt_append, List.length_append]
    omega

/-! ## Staging -/

/-- A full `rx_fifo` owes bytes. -/
theorem full_owes (hfull : ((b.net n).port r).rxFifo.room = 0) :
    (gotAt r (b.history n)).length < (delivered (b.arrived r n)).length := by
  obtain ⟨inFlight, hbooks, -⟩ := h.books n
  have hcap := ((h.ready n r.board).sized r.port).rxFifo
  have hlong : maxEncodedByteCount ≤ ((b.net n).port r).rxFifo.contents.length := by
    have hbig : maxEncodedByteCount ≤ ringBufferStorageCapacity := by decide
    unfold Ring.room Network.port at *
    omega
  have hpos := List.length_pos_iff.2 (delivered_ne_nil hbooks.valid hbooks.encoded hlong)
  rw [← (h.streamed n).received.balance, List.length_append, List.length_append]
  omega

/-- **What went onto the line arrives.** -/
theorem eventually_arrived (hfair : b.Fair s r) (n : ℕ) :
    ∃ k, n ≤ k ∧ b.front r n <+: b.arrived r k := by
  obtain ⟨k, hk, hreached⟩ := @exists_le_of_progress (fun k => (b.arrived r k).length)
    (b.front r n).length n (by
      intro k hk hshort
      by_contra hstill
      push Not at hstill
      -- Otherwise the stream stands still, and the line keeps bytes.
      have hsame : ∀ k', k ≤ k' → b.arrived r k' = b.arrived r k := fun k' hk' =>
        ((arrived_mono b hk').eq_of_length_le (hstill k' hk')).symm
      -- Reads go on until nothing that has arrived is owed.
      obtain ⟨k₁, hk₁, hread⟩ := h.eventually_read hfair k
        fun k' hk' => (congrArg (fun s => (delivered s).length) (hsame k' hk')).ge
      obtain ⟨k₂, hk₂, hstages⟩ := hfair.stages k₁
      have hline : (b.net k₂).line r ≠ [] := by
        intro hnil
        have hfront := (front_mono b h.wired (hk.trans (hk₁.trans hk₂))).length_le
        rw [front, front, hnil, List.append_nil, hsame k₂ (hk₁.trans hk₂)] at hfront
        rw [front] at hshort
        omega
      have hroom : 0 < ((b.net k₂).port r).rxFifo.room := by
        by_contra hfull
        have howed := h.full_owes (n := k₂) (by omega)
        have hgrown := (got_mono (r := r) b hk₂).length_le
        rw [hsame k₂ (hk₁.trans hk₂)] at howed
        omega
      have hstaged := List.length_pos_iff.2 (hstages hline hroom)
      have := hstill (k₂ + 1) (by omega)
      rw [arrived_succ, List.length_append, hsame k₂ (hk₁.trans hk₂)] at this
      omega)
  refine ⟨k, hk, ?_⟩
  refine List.prefix_of_prefix_length_le (front_mono b h.wired hk) ?_ hreached
  rw [front]
  exact List.prefix_append ..

end Links

end Behaviour

/-! ## Delivery -/

/-- **Every accepted byte is returned sooner or later**, on a link that is serviced fairly, between
boards that were reset, and while no more is owed than `rx_queue` can hold. -/
theorem fair_link_delivers {b : Behaviour hears} (h : b.Links s r) (hfair : b.Fair s r) (n : ℕ) :
    ∃ k, (sentAt s (b.history n)).flatten <+: gotAt r (b.history k) := by
  obtain ⟨k₁, hk₁, hemitted⟩ := h.eventually_emitted hfair n
  obtain ⟨k₂, hk₂, harrived⟩ := h.eventually_arrived hfair k₁
  have hvalid := (h.streamed n).valid
  have hwhole : ∀ k, k₂ ≤ k →
      (sentAt s (b.history n)).flatten <+: delivered (b.arrived r k) := fun k hk =>
    flatten_prefix_delivered hvalid
      (hemitted.trans (harrived.trans (Behaviour.arrived_mono b hk)))
  obtain ⟨k, hk, hread⟩ := h.eventually_read hfair k₂ fun k hk => (hwhole k hk).length_le
  refine ⟨k, List.prefix_of_prefix_length_le (hwhole k hk) ?_ hread⟩
  rw [← (h.streamed k).received.balance, List.append_assoc]
  exact List.prefix_append ..

/-! ## A fair schedule -/

/-- A device that holds bytes hands them out in order, as many as there is room for. -/
theorem staged_deviceHolding {bytes : List UInt8} (hbytes : bytes.length < fifoCapacity)
    (d : Driver) (p : PortIndex) {data : OutBuffer} (hdata : ¬ data.missing) :
    (Event.mk d (deviceHolding bytes) (.readHw (some 0) 0 data .valid)).staged p =
      if p = 0 then bytes.take (d.ports 0).rxFifo.room else [] := by
  have hplain : deviceHolding bytes = DeviceMemory.plain (deviceHolding bytes).mem := rfl
  have hlevel : peekLevel (deviceHolding bytes) 0 0 regRxlvl = bytes.length := by
    show (UInt8.ofNat bytes.length).toNat = bytes.length
    rw [UInt8.toNat_ofNat']
    exact Nat.mod_eq_of_lt hbytes
  have hcount : stageCount (deviceHolding bytes) 0 0 (d.ports 0) =
      min (d.ports 0).rxFifo.room bytes.length := by
    have hread := DeviceMemory.read8_plain (deviceHolding bytes).mem (registerAddress 0 0 regRxlvl)
    rw [← hplain] at hread
    rw [stageCount, hread, hlevel, Nat.min_assoc, Nat.min_self]
  rw [Event.staged]
  dsimp only
  by_cases hp : p = 0
  · subst hp
    rw [if_pos ⟨rfl, by simpa using hdata⟩, if_pos rfl, hcount]
    refine List.ext_getElem (by simp) ?_
    intro i hi _
    rw [length_peekWindow] at hi
    have hfifo : fifoAddress 0 0 = 256 := rfl
    have hreg : registerAddress 0 0 regRxlvl = 9 := rfl
    have hbound : i < bytes.length := hi.trans_le (min_le_right ..)
    simp [peekWindow, DeviceMemory.peek, deviceHolding, hfifo, hreg, List.getD, hbound,
      show ¬ (256 + i = 9) by omega]
  · rw [if_neg hp, if_neg]
    exact fun h => hp (Fin.ext h.1.symm)

/-- Whose turn it is: the first board queues a packet, and then polls in turns with the second,
which reads what its line brings. -/
def turn (net : Network Bool) : ℕ → Bool × DeviceMemory × Call
  | 0 => (false, default, .write 0 (.bytes [1]) .valid)
  | n + 1 =>
    if n % 2 = 0 then (false, deviceWithRoom, .pollHwPort (some 0) 0)
    else (true, deviceHolding ((net.line ⟨true, 0⟩).take 255),
      .readHw (some 0) 0 ⟨.valid, 1⟩ .valid)

def turnEvent (net : Network Bool) (n : ℕ) : Bool × Event :=
  net.event (turn net n).1 (turn net n).2.1 (turn net n).2.2

def turnNet : ℕ → Network Bool
  | 0 => ⟨fun _ => resetState .zero, fun _ => []⟩
  | n + 1 => (turnNet n).after twoBoards (turnEvent (turnNet n) n)

theorem turn_even {n : ℕ} (h : n % 2 = 0) (net : Network Bool) :
    turn net (n + 1) = (false, deviceWithRoom, .pollHwPort (some 0) 0) := if_pos h

theorem turn_odd {n : ℕ} (h : n % 2 = 1) (net : Network Bool) :
    turn net (n + 1) = (true, deviceHolding ((net.line ⟨true, 0⟩).take 255),
      .readHw (some 0) 0 ⟨.valid, 1⟩ .valid) := if_neg (by omega)

theorem turn_service (net : Network Bool) (n : ℕ) : (turn net n).2.2.IsService := by
  cases n with
  | zero => trivial
  | succ n =>
    rcases Nat.mod_two_eq_zero_or_one n with h | h
    · rw [turn_even h]; trivial
    · rw [turn_odd h]; trivial

/-- Only the second board stages bytes, and what it stages is on its line. -/
theorem turn_carries (net : Network Bool) (n : ℕ) : net.Carries twoBoards (turnEvent net n) := by
  rintro ⟨_ | _, q⟩ s hs
  · simp [twoBoards] at hs
  have hfirst : ∀ e : Event, stagedAt ⟨true, q⟩ (false, e) = [] := fun e => rfl
  cases n with
  | zero => exact List.nil_prefix
  | succ n =>
    rcases Nat.mod_two_eq_zero_or_one n with h | h
    · rw [turnEvent, turn_even h, Network.event, hfirst]
      exact List.nil_prefix
    · have hlength : ((net.line ⟨true, 0⟩).take 255).length < fifoCapacity := by
        rw [List.length_take]
        unfold fifoCapacity
        omega
      rw [turnEvent, turn_odd h, Network.event, stagedAt, if_pos rfl,
        staged_deviceHolding hlength _ q (by simp [OutBuffer.missing])]
      split_ifs with hq
      · subst hq
        exact ((List.take_prefix ..).trans (List.take_prefix ..)).trans (List.prefix_append ..)
      · exact List.nil_prefix

def turns : Behaviour twoBoards where
  net := turnNet
  board n := (turn (turnNet n) n).1
  memory n := (turn (turnNet n) n).2.1
  call n := (turn (turnNet n) n).2.2
  service n := turn_service (turnNet n) n
  carries n := turn_carries (turnNet n) n
  next _ := rfl

theorem turns_fair : turns.Fair ⟨false, 0⟩ ⟨true, 0⟩ := by
  have hpoll : ∀ n, turn (turnNet (2 * n + 1)) (2 * n + 1) = _ := fun n =>
    turn_even (by omega) (turnNet (2 * n + 1))
  have hread : ∀ n, turn (turnNet (2 * n + 2)) (2 * n + 2) = _ := fun n =>
    turn_odd (by omega) (turnNet (2 * n + 2))
  refine ⟨?_, ?_, ?_⟩
  · intro n
    exact ⟨2 * n + 1, by omega, congrArg (·.1) (hpoll n), 0, congrArg (·.2.2) (hpoll n), by
      show 0 < peekLevel (turn (turnNet (2 * n + 1)) (2 * n + 1)).2.1 0 0 regTxlvl
      rw [hpoll]
      decide⟩
  · intro n
    refine ⟨2 * n + 2, by omega, ?_⟩
    intro hline hroom
    show stagedAt ⟨true, 0⟩ (turnEvent (turnNet (2 * n + 2)) (2 * n + 2)) ≠ []
    have hlength : (((turnNet (2 * n + 2)).line ⟨true, 0⟩).take 255).length < fifoCapacity := by
      rw [List.length_take]
      unfold fifoCapacity
      omega
    rw [turnEvent, hread, Network.event, stagedAt, if_pos rfl,
      staged_deviceHolding hlength _ 0 (by simp [OutBuffer.missing]), if_pos rfl]
    exact take_ne_nil (take_ne_nil hline (by decide)) hroom
  · intro n
    exact ⟨2 * n + 2, by omega, congrArg (·.1) (hread n), ⟨.valid, 1⟩, by decide, Nat.one_pos,
      .inr ⟨0, congrArg (·.2.2) (hread n)⟩⟩

/-- Only the first turn submits a packet. -/
theorem turns_sent (n : ℕ) : sentAt ⟨false, 0⟩ (turns.history (n + 1)) = [[1]] := by
  induction n with
  | zero => decide +kernel
  | succ n ih =>
    have hnone : (turns.event (n + 1)).2.call.sends = none := by
      show (turn (turnNet (n + 1)) (n + 1)).2.2.sends = none
      rcases Nat.mod_two_eq_zero_or_one n with h | h
      · rw [turn_even h]; rfl
      · rw [turn_odd h]; rfl
    rw [Behaviour.history_succ, sentAt_append, ih, sentAt, onBoard, List.flatMap_singleton]
    split_ifs
    · rw [accepted_other hnone]
      rfl
    · rfl

theorem turns_links : turns.Links ⟨false, 0⟩ ⟨true, 0⟩ := by
  refine ⟨⟨fun _ => ⟨.zero, .inl rfl⟩, fun _ => rfl⟩, rfl, ?_⟩
  rintro n es' ⟨rest, hrest⟩
  have hall := congrArg List.length (congrArg List.flatten (turns_sent n))
  rw [Behaviour.history_succ, ← hrest, sentAt_append, sentAt_append, List.flatten_append,
    List.flatten_append, List.length_append, List.length_append] at hall
  have hcap : [[(1 : UInt8)]].flatten.length ≤ ringBufferStorageCapacity := by decide
  omega

theorem fair_link_delivers_turns : ∃ k, [1] <+: gotAt ⟨true, 0⟩ (turns.history k) := by
  obtain ⟨k, hk⟩ := fair_link_delivers turns_links turns_fair 1
  rw [turns_sent 0] at hk
  exact ⟨k, hk⟩

end Xr17v358
