import SerialDriver.Lib.Blocks
import SerialDriver.Guards
import SerialDriver.LineScan

/-!
# Reading into a nearly full queue

A decoding pass asks for one free byte in `rx_queue` before it takes a frame off `rx_fifo`, not for
room for the payload. So a read keeps the messages exactly when the payloads fit the queue, or the
first few of them fill it up to the last byte (`read_keeps_iff`). Otherwise the payload that does
not fit is cut, and the rest of it is lost.
-/

namespace Xr17v358

open Blocks Incremental

/-! ## A pass over encodings -/

variable {ds : List (List UInt8)} {queue fifo' queue' : List UInt8} {room : Nat} {e : Error}

/-- On encodings a pass queues whole payloads, or cuts the last payload it takes. -/
theorem Pass.of_encodings (hds : ∀ d ∈ ds, ValidPayload d)
    (h : Pass (ds.flatMap encode) queue room e fifo' queue') :
    (∃ taken left, Whole ds taken left room ∧ e = .ok ∧ fifo' = left.flatMap encode ∧
        queue' = queue ++ taken.flatten) ∨
      ∃ taken d left, Torn ds taken d left room ∧ e = .errorInvalidFrame ∧
        fifo' = left.flatMap encode ∧ queue' = queue ++ (taken.flatten ++ d).take room := by
  have haligned : ∀ {os}, Steps receiver (ds.flatMap encode) os fifo' →
      ∃ taken left, ds = taken ++ left ∧ os = taken.map some ∧ fifo' = left.flatMap encode := by
    intro os hsteps
    obtain ⟨taken, left, hsplit, hos, hleft⟩ :=
      steps_aligned hds (List.append_nil (ds.flatMap encode)) hsteps
    exact ⟨taken, left, hsplit, hos, by rw [← hleft, List.append_nil]⟩
  have hsome : Function.Injective (List.map (some : List UInt8 → Option (List UInt8))) :=
    List.map_injective_iff.2 (Option.some_injective _)
  cases h with
  | drained hsteps hroom hstop =>
    obtain ⟨taken, left, rfl, hos, rfl⟩ := haligned hsteps
    obtain rfl := hsome hos
    refine .inl ⟨_, left, ⟨rfl, hroom, hstop.imp_left fun hstuck => ?_⟩, rfl, rfl, rfl⟩
    cases left with
    | nil => rfl
    | cons d left =>
      have hstep := @extract_encode [] d (by simp) (hds d (by simp)) (left.flatMap encode)
      rw [List.flatMap_cons] at hstuck
      exact absurd (hstuck.symm.trans hstep) (by simp)
  | malformed hsteps _ =>
    obtain ⟨taken, left, rfl, hos, -⟩ := haligned hsteps
    have hnone : none ∈ taken.map some := hos ▸ List.mem_append_right _ (List.mem_singleton_self _)
    simp at hnone
  | @short ds' d _ hsteps hroom hshort =>
    obtain ⟨taken, left, rfl, hos, rfl⟩ := haligned hsteps
    obtain rfl : ds' ++ [d] = taken := hsome (by rw [List.map_append]; exact hos)
    exact .inr ⟨ds', d, left, ⟨by simp, hroom, hshort⟩, rfl, rfl, rfl⟩

/-! ## A read of the staged bytes -/

/-- The payload bytes a reply hands to the caller. -/
def Reply.handed (reply : Reply) : List UInt8 := if reply.status = .ok then reply.data else []

/-- What a read hands out and what it leaves is what was there: `rx_queue`, and the payloads
encoded in `rx_fifo`. -/
def KeepsMessages (before : Port) (reply : Reply) (after : Port) : Prop :=
  reply.handed ++ after.rxQueue.contents ++ delivered after.rxFifo.contents =
    before.rxQueue.contents ++ delivered before.rxFifo.contents

/-- Each message of `rx_fifo` is decoded and queued whole or stays in `rx_fifo`. -/
def TakesWhole (ds : List (List UInt8)) (before : Port) (reply : Reply) (after : Port) : Prop :=
  ∃ taken left, ds = taken ++ left ∧ after.rxFifo.contents = left.flatMap encode ∧
    reply.handed ++ after.rxQueue.contents = before.rxQueue.contents ++ taken.flatten

theorem delivered_encodings (hds : ∀ d ∈ ds, ValidPayload d) :
    delivered (ds.flatMap encode) = ds.flatten := by
  rw [delivered, scan_encodings hds]

theorem TakesWhole.keepsMessages {before after : Port} {reply : Reply}
    (h : TakesWhole ds before reply after) (hds : ∀ d ∈ ds, ValidPayload d)
    (hfifo : before.rxFifo.contents = ds.flatMap encode) : KeepsMessages before reply after := by
  obtain ⟨taken, left, rfl, hleft, hqueue⟩ := h
  have hvalid : ∀ d ∈ left, ValidPayload d := fun d hd => hds d (List.mem_append_right _ hd)
  rw [KeepsMessages, hqueue, hleft, hfifo, delivered_encodings hds, delivered_encodings hvalid,
    List.append_assoc, List.flatten_append]

/-- A staged read keeps whole messages, or fails and loses bytes of one. -/
theorem readFromStagedRx_encodings (portIndex length : Nat) {port : Port}
    (hds : ∀ d ∈ ds, ValidPayload d) (hfifo : port.rxFifo.contents = ds.flatMap encode) :
    let out := readFromStagedRx portIndex port length
    (CutsWhole ds port.rxQueue.room ∧ TakesWhole ds port out.1 out.2) ∨
      (¬ CutsWhole ds port.rxQueue.room ∧ out.1 = .code .errorInvalidFrame ∧
        ¬ KeepsMessages port out.1 out.2) := by
  intro out
  obtain ⟨e, queue, rxFifo, rxQueue, hpass, hrun, -, -, hqueue⟩ :=
    readFromStagedRx_spec portIndex port length
  have hhanded : out.1.handed = out.1.data := by
    unfold Reply.handed
    split_ifs with hok
    · rfl
    · exact (readFromStagedRx_data portIndex port length hok).symm
  have hout : out = _ := hrun
  have htotal : out.1.handed ++ out.2.rxQueue.contents = queue := by
    rw [hhanded, hout]
    exact hqueue
  rw [hfifo] at hpass
  rcases hpass.of_encodings hds with ⟨taken, left, hwhole, -, hleft, rfl⟩ |
    ⟨taken, d, left, htorn, rfl, hleft, rfl⟩
  · refine .inl ⟨hwhole.cutsWhole, taken, left, hwhole.split, ?_, htotal⟩
    rw [hout]
    exact hleft
  · refine .inr ⟨htorn.not_cutsWhole, by rw [hout]; rfl, ?_⟩
    intro hkeeps
    have hvalid : ∀ x ∈ left, ValidPayload x := fun x hx => hds x (by rw [htorn.split]; simp [hx])
    have hfifo' : out.2.rxFifo.contents = left.flatMap encode := by
      rw [hout]
      exact hleft
    have hlength := congrArg List.length hkeeps
    rw [htotal, hfifo', hfifo, delivered_encodings hds, delivered_encodings hvalid, htorn.split]
      at hlength
    have hshort := htorn.short
    simp only [List.length_append, List.length_take, List.flatten_append, List.flatten_cons]
      at hlength
    omega

/-! ## The calls -/

/-- The reads of a port: `read`, and `readHw` when the device holds no byte for the port. -/
def Call.ReadsStaged (m : DeviceMemory) (p : PortIndex) : Call → Prop
  | read portIndex .. => portIndex = p
  | readHw deviceBase portIndex .. =>
    portIndex = p ∧ ∀ base ∈ deviceBase, peekLevel m base p regRxlvl = 0
  | _ => False

variable {m : DeviceMemory} {p : PortIndex} {c : Call}

theorem stageRxBytesFromHw_none {deviceBase : Nat} (h : peekLevel m deviceBase p regRxlvl = 0)
    (port : Port) : ∃ m', stageRxBytesFromHw m deviceBase p port = (.ok, port, m') := by
  obtain ⟨hcount, hsame⟩ := @stageCount_eq_zero m deviceBase p port (by rw [h, Nat.min_zero])
  exact ⟨_, by rw [stageRxBytesFromHw_eq, hcount, hsame]⟩

/-- Such a call is turned away, or it is a read of the staged bytes. -/
theorem readsStaged_cases (hc : c.ReadsStaged m p) (d : Driver) :
    let e : Event := ⟨d, m, c⟩
    let port := (ensureStateInitialized d).ports p
    (c.PassesNull ∧ e.reply = .code .errorInvalidArgument ∧ e.after.ports p = port) ∨
      (¬ c.PassesNull ∧ ∃ length, e.reply = (readFromStagedRx p port length).1 ∧
        e.after.ports p = (readFromStagedRx p port length).2) := by
  intro e port
  cases c with
  | read portIndex data ptr =>
    obtain rfl : portIndex = p := hc
    have hreply : e.reply = (read d p data ptr).1 := rfl
    have hafter : e.after.ports p = (read d p data ptr).2.ports p := rfl
    rw [read, onPort_out] at hreply
    rw [read, onPort_ports, if_pos rfl] at hafter
    by_cases hargs : ptr = .null ∨ data.missing
    · rw [if_pos hargs] at hreply hafter
      exact .inl ⟨hargs, hreply, hafter⟩
    · rw [if_neg hargs] at hreply hafter
      exact .inr ⟨hargs, data.length, hreply, hafter⟩
  | readHw deviceBase portIndex data ptr =>
    obtain ⟨rfl, hlevel⟩ := hc
    have hreply : e.reply = (readHw d m deviceBase p data ptr).1.1 := rfl
    have hafter : e.after.ports p = (readHw d m deviceBase p data ptr).2.ports p := rfl
    rw [readHw, onPort_out] at hreply
    rw [readHw, onPort_ports, if_pos rfl] at hafter
    cases deviceBase with
    | none => exact .inl ⟨.inl rfl, hreply, hafter⟩
    | some deviceBase =>
      by_cases hargs : ptr = .null ∨ data.missing
      · simp only [if_pos hargs] at hreply hafter
        exact .inl ⟨.inr hargs, hreply, hafter⟩
      · obtain ⟨m', hstage⟩ := stageRxBytesFromHw_none (hlevel deviceBase rfl) port
        simp only [if_neg hargs, port, hstage, ne_eq, not_true_eq_false, if_false]
          at hreply hafter
        refine .inr ⟨?_, data.length, hreply, hafter⟩
        rintro (hbase | hnull)
        · exact absurd hbase (by simp)
        · exact hargs hnull
  | _ => exact hc.elim

/-- **A read keeps the messages exactly when no payload is cut**: the payloads fit the room of
`rx_queue`, or the first few of them fill it. -/
theorem read_keeps_iff (hc : c.ReadsStaged m p) (d : Driver) {ds : List (List UInt8)}
    (hds : ∀ x ∈ ds, ValidPayload x)
    (hfifo : ((ensureStateInitialized d).ports p).rxFifo.contents = ds.flatMap encode) :
    let e : Event := ⟨d, m, c⟩
    let port := (ensureStateInitialized d).ports p
    (KeepsMessages port e.reply (e.after.ports p) ↔
        c.PassesNull ∨ CutsWhole ds port.rxQueue.room) ∧
      (TakesWhole ds port e.reply (e.after.ports p) ↔
        c.PassesNull ∨ CutsWhole ds port.rxQueue.room) := by
  intro e port
  rcases readsStaged_cases hc d with ⟨hnull, hreply, hafter⟩ | ⟨hargs, length, hreply, hafter⟩
  · have hwhole : TakesWhole ds port e.reply (e.after.ports p) := by
      refine ⟨[], ds, rfl, ?_, ?_⟩
      · rw [hafter]
        exact hfifo
      · rw [hafter, hreply, List.flatten_nil, List.append_nil]
        rfl
    exact ⟨iff_of_true (hwhole.keepsMessages hds hfifo) (.inl hnull),
      iff_of_true hwhole (.inl hnull)⟩
  · rw [hreply, hafter, or_iff_right hargs]
    rcases readFromStagedRx_encodings p length hds hfifo with ⟨hcuts, hwhole⟩ |
      ⟨hcuts, -, hlost⟩
    · exact ⟨iff_of_true (hwhole.keepsMessages hds hfifo) hcuts, iff_of_true hwhole hcuts⟩
    · exact ⟨iff_of_false hlost hcuts,
        iff_of_false (fun hwhole => hlost (hwhole.keepsMessages hds hfifo)) hcuts⟩

theorem read_keeps_onePacket : ∃ d, Reachable d ∧
    (d.ports 0).rxFifo.contents = encode [1, 0x7E] ∧
    KeepsMessages (d.ports 0) (Event.mk d default (.read 0 ⟨.valid, 1⟩ .valid)).reply
      ((Event.mk d default (.read 0 ⟨.valid, 1⟩ .valid)).after.ports 0) := by
  obtain ⟨d, hd, hready, hfifo, hroom⟩ : ∃ d, Reachable d ∧ d.Ready ∧
      (d.ports 0).rxFifo.contents = encode [1, 0x7E] ∧ 2 ≤ (d.ports 0).rxQueue.room :=
    ⟨injected (encode [1, 0x7E]), reachable_injected _, ready_injected _, by decide +kernel,
      by decide +kernel⟩
  have hc : (Call.read 0 ⟨.valid, 1⟩ .valid).ReadsStaged default 0 := rfl
  have hensure := ensureStateInitialized_of_ready hready
  have hstaged : ((ensureStateInitialized d).ports 0).rxFifo.contents =
      [[1, 0x7E]].flatMap encode := by
    rw [hensure]
    exact hfifo
  have hkeeps := (read_keeps_iff hc d (by decide) hstaged).1
  rw [hensure] at hkeeps
  exact ⟨d, hd, hfifo, hkeeps.2 (.inr (.inl hroom))⟩

/-! ## A reachable state in which a read cuts a payload -/

theorem reachable_step {d : Driver} (h : Reachable d) (hd : d.Ready) (m : DeviceMemory) (c : Call) :
    Reachable (Event.mk d m c).after ∧ (Event.mk d m c).after.Ready := by
  obtain ⟨es, hrun⟩ := h
  have hstep : Run (fun _ => True) d [⟨d, m, c⟩] (Event.mk d m c).after := Run.nil.snoc m c trivial
  exact ⟨⟨_, hrun.append hstep⟩, hstep.ready hd⟩

/-- A read of no bytes moves the payloads of `rx_fifo` that fit to `rx_queue`. -/
theorem readFromStagedRx_drains (portIndex : Nat) {port : Port} (hds : ∀ d ∈ ds, ValidPayload d)
    (hfifo : port.rxFifo.contents = ds.flatMap encode)
    (hroom : ds.flatten.length < port.rxQueue.room) :
    (readFromStagedRx portIndex port 0).2.rxFifo.contents = [] ∧
      (readFromStagedRx portIndex port 0).2.rxQueue.contents =
        port.rxQueue.contents ++ ds.flatten := by
  obtain ⟨e, queue, rxFifo, rxQueue, hpass, hrun, -, -, hqueue⟩ :=
    readFromStagedRx_spec portIndex port 0
  have hnone : (readReply e rxFifo.contents queue 0).data = [] := by
    unfold readReply
    split_ifs <;> rfl
  rw [hnone, List.nil_append] at hqueue
  rw [hfifo] at hpass
  rw [hrun, hqueue]
  rcases hpass.of_encodings hds with ⟨taken, left, ⟨rfl, hfits, hstop⟩, -, hleft, rfl⟩ |
    ⟨taken, d, left, ⟨rfl, -, hshort⟩, -⟩
  · have hall : left = [] := by
      refine hstop.resolve_right fun hfull => ?_
      rw [length_flatten_append] at hroom
      omega
    rw [hall] at hleft
    rw [hall, List.append_nil]
    exact ⟨hleft, rfl⟩
  · rw [length_flatten_append, length_flatten_cons] at hroom
    omega

/-- Encodings that fit can be injected into an empty `rx_fifo`. -/
theorem exists_injected {d : Driver} (h : Reachable d) (hd : d.Ready) (p : PortIndex)
    (hempty : (d.ports p).rxFifo.contents = [])
    (hfit : (ds.flatMap encode).length ≤ ringBufferStorageCapacity) :
    ∃ d', Reachable d' ∧ d'.Ready ∧ (d'.ports p).rxFifo.contents = ds.flatMap encode ∧
      (d'.ports p).rxQueue.contents = (d.ports p).rxQueue.contents := by
  have hroom : (ds.flatMap encode).length ≤ (d.ports p).rxFifo.room := by
    rw [Ring.room, hempty, (hd.sized p).rxFifo]
    exact hfit
  obtain ⟨hreach, hready⟩ := reachable_step h hd default
    (.injectRxFrameBytes p (.bytes (ds.flatMap encode)) .valid)
  refine ⟨_, hreach, hready, ?_⟩
  have hport : (injectRxFrameBytes d p (.bytes (ds.flatMap encode)) .valid).2.ports p =
      { d.ports p with rxFifo := ((d.ports p).rxFifo.writeBytes (ds.flatMap encode)).2 } := by
    rw [injectRxFrameBytes, injectFrameBytes, onPort_ports, ensureStateInitialized_of_ready hd,
      if_pos rfl]
    rfl
  show ((injectRxFrameBytes d p _ .valid).2.ports p).rxFifo.contents = _ ∧
    ((injectRxFrameBytes d p _ .valid).2.ports p).rxQueue.contents = _
  rw [hport]
  refine ⟨?_, rfl⟩
  rw [Ring.contents_writeBytes, List.take_of_length_le hroom, hempty, List.nil_append]

/-- A read of no bytes decodes them all into `rx_queue`, if there is room. -/
theorem exists_decoded {d : Driver} (h : Reachable d) (hd : d.Ready) (p : PortIndex)
    (hds : ∀ x ∈ ds, ValidPayload x) (hfifo : (d.ports p).rxFifo.contents = ds.flatMap encode)
    (hroom : ds.flatten.length < (d.ports p).rxQueue.room) :
    ∃ d', Reachable d' ∧ d'.Ready ∧ (d'.ports p).rxFifo.contents = [] ∧
      (d'.ports p).rxQueue.contents = (d.ports p).rxQueue.contents ++ ds.flatten := by
  obtain ⟨hreach, hready⟩ := reachable_step h hd default (.read p ⟨.valid, 0⟩ .valid)
  refine ⟨_, hreach, hready, ?_⟩
  show ((read d p ⟨.valid, 0⟩ .valid).2.ports p).rxFifo.contents = _ ∧
    ((read d p ⟨.valid, 0⟩ .valid).2.ports p).rxQueue.contents = _
  rw [read_port hd, if_pos ⟨rfl, by simp [OutBuffer.missing]⟩]
  exact readFromStagedRx_drains p hds hfifo hroom

/-- A payload of the longest length, none of it escaped. -/
def longPayload : List UInt8 := List.replicate queueCapacity 0

theorem validPayload_long : ValidPayload longPayload := by
  rw [longPayload, ValidPayload, List.length_replicate]
  decide

theorem length_encode_long : (encode longPayload).length = 1026 := by
  rw [length_encode_eq validPayload_long]
  decide +kernel

/-- 511 such payloads in `rx_queue`, and two more waiting in `rx_fifo`. -/
theorem exists_nearlyFull : ∃ d, Reachable d ∧ d.Ready ∧
    (d.ports 0).rxQueue.room = 1536 ∧
    (d.ports 0).rxFifo.contents = [longPayload, longPayload].flatMap encode := by
  have hds : ∀ x ∈ List.replicate 511 longPayload, ValidPayload x := by
    intro x hx
    rw [List.eq_of_mem_replicate hx]
    exact validPayload_long
  have hlength : ((List.replicate 511 longPayload).flatMap encode).length = 524286 := by
    rw [List.length_flatMap, List.map_replicate, List.sum_replicate_nat, length_encode_long]
  have htotal : (List.replicate 511 longPayload).flatten.length = 523264 := by
    rw [longPayload, List.flatten_replicate_replicate, List.length_replicate]
    rfl
  have hpair : ([longPayload, longPayload].flatMap encode).length = 2052 := by
    rw [List.flatMap_cons, List.flatMap_singleton, List.length_append, length_encode_long]
  have hreset : Reachable (resetState .zero) := ⟨_, Run.nil.snoc default .resetState trivial⟩
  obtain ⟨d₁, hreach₁, hready₁, hfifo₁, hqueue₁⟩ :=
    exists_injected hreset (ready_resetState _) 0 rfl (hlength.le.trans (by decide))
  have hempty : (d₁.ports 0).rxQueue.contents = [] := hqueue₁
  have hroom : (List.replicate 511 longPayload).flatten.length < (d₁.ports 0).rxQueue.room := by
    rw [Ring.room, hempty, (hready₁.sized 0).rxQueue, htotal]
    decide
  obtain ⟨d₂, hreach₂, hready₂, hfifo₂, hqueue₂⟩ :=
    exists_decoded hreach₁ hready₁ 0 hds hfifo₁ hroom
  obtain ⟨d, hreach, hready, hfifo, hqueue⟩ :=
    exists_injected hreach₂ hready₂ 0 hfifo₂ (hpair.le.trans (by decide))
  refine ⟨d, hreach, hready, ?_, hfifo⟩
  rw [Ring.room, hqueue, hqueue₂, hempty, List.nil_append, (hready.sized 0).rxQueue, htotal]
  rfl

/-- Two payloads of 1024 bytes and room for 1536: the read fails, and half of the second payload is
in no ring. -/
theorem read_cutsPayload : ∃ d, Reachable d ∧
    (d.ports 0).rxQueue.room = 1536 ∧
    (d.ports 0).rxFifo.contents = [longPayload, longPayload].flatMap encode ∧
    (Event.mk d default (.read 0 ⟨.valid, 1⟩ .valid)).reply = .code .errorInvalidFrame ∧
    ¬ KeepsMessages (d.ports 0) (Event.mk d default (.read 0 ⟨.valid, 1⟩ .valid)).reply
      ((Event.mk d default (.read 0 ⟨.valid, 1⟩ .valid)).after.ports 0) := by
  obtain ⟨d, hreach, hready, hroom, hfifo⟩ := exists_nearlyFull
  have hds : ∀ x ∈ [longPayload, longPayload], ValidPayload x := by
    simp [validPayload_long]
  have hlong : longPayload.length = 1024 := List.length_replicate
  have htorn : Torn [longPayload, longPayload] [longPayload] longPayload [] 1536 := by
    refine ⟨rfl, ?_, ?_⟩
    · rw [List.flatten_singleton, hlong]
      decide
    · rw [List.flatten_singleton, hlong]
      decide
  have hargs : ¬ (Ptr.valid = .null ∨ OutBuffer.missing ⟨.valid, 1⟩) := by decide
  have hreply : (Event.mk d default (.read 0 ⟨.valid, 1⟩ .valid)).reply =
      (readFromStagedRx 0 (d.ports 0) 1).1 := read_reply hready 0 ⟨.valid, 1⟩ hargs
  have hport : (Event.mk d default (.read 0 ⟨.valid, 1⟩ .valid)).after.ports 0 =
      (readFromStagedRx 0 (d.ports 0) 1).2 := read_port hready 0 0 ⟨.valid, 1⟩ .valid
  refine ⟨d, hreach, hroom, hfifo, ?_⟩
  rw [hreply, hport]
  rcases readFromStagedRx_encodings 0 1 hds hfifo with ⟨hcuts, -⟩ | ⟨-, herror, hlost⟩
  · rw [hroom] at hcuts
    exact absurd hcuts htorn.not_cutsWhole
  · exact ⟨herror, hlost⟩

end Xr17v358
