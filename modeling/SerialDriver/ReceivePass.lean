import SerialDriver.Staging
import SerialDriver.Stream

/-!
# One pass of the receive path

`decodeRxFifoIntoReadQueue` takes items off `rx_fifo` in the order of `receiver` until something
stops it. `Pass` lists the ways it can stop, and `decode_pass` and `readFromStagedRx_spec` say that
there are no others.
-/

namespace Xr17v358

open Incremental

/-- The ways a decoding pass ends, on a read queue with `room` bytes left: the status, and the
contents of `rx_fifo` and `rx_queue` afterwards. -/
inductive Pass (fifo queue : List UInt8) (room : Nat) :
    Error → List UInt8 → List UInt8 → Prop
  /-- No complete frame is left, or no room. -/
  | drained {ds : List (List UInt8)} {fifo' : List UInt8}
      (hsteps : Steps receiver fifo (ds.map some) fifo') (hroom : ds.flatten.length ≤ room)
      (hstop : receiver.step fifo' = none ∨ ds.flatten.length = room) :
      Pass fifo queue room .ok fifo' (queue ++ ds.flatten)
  /-- A frame was malformed or too long. -/
  | malformed {ds : List (List UInt8)} {fifo' : List UInt8}
      (hsteps : Steps receiver fifo (ds.map some ++ [none]) fifo')
      (hroom : ds.flatten.length < room) :
      Pass fifo queue room .errorInvalidFrame fifo' (queue ++ ds.flatten)
  /-- A payload did not fit. -/
  | short {ds : List (List UInt8)} {d fifo' : List UInt8}
      (hsteps : Steps receiver fifo (ds.map some ++ [some d]) fifo')
      (hroom : ds.flatten.length < room) (hshort : room < ds.flatten.length + d.length) :
      Pass fifo queue room .errorInvalidFrame fifo' (queue ++ (ds.flatten ++ d).take room)

variable {fifo fifo' queue queue' : List UInt8} {room : Nat} {e : Error}

/-- A pass that stops at once. -/
theorem Pass.idle (hstop : receiver.step fifo = none ∨ room = 0) :
    Pass fifo queue room .ok fifo queue := by
  have := @Pass.drained fifo queue room [] fifo (.refl _) (Nat.zero_le _) (hstop.imp_right Eq.symm)
  simpa using this

/-- One more payload in front of a pass. -/
theorem Pass.cons {d fifo₁ : List UInt8} (hstep : receiver.step fifo = some (some d, fifo₁))
    (hfit : d.length ≤ room)
    (h : Pass fifo₁ (queue ++ d) (room - d.length) e fifo' queue') :
    Pass fifo queue room e fifo' queue' := by
  have hlen : ∀ ds : List (List UInt8), (d :: ds).flatten.length = d.length + ds.flatten.length :=
    fun ds => by rw [List.flatten_cons, List.length_append]
  cases h with
  | @drained ds _ hsteps hroom hstop =>
    rw [List.append_assoc, ← List.flatten_cons]
    exact .drained (.cons hstep hsteps) (by rw [hlen]; omega)
      (hstop.imp_right fun h => by rw [hlen]; omega)
  | @malformed ds _ hsteps hroom =>
    rw [List.append_assoc, ← List.flatten_cons]
    exact .malformed (.cons hstep hsteps) (by rw [hlen]; omega)
  | @short ds d' _ hsteps hroom hshort =>
    have htake : d ++ (ds.flatten ++ d').take (room - d.length) =
        ((d :: ds).flatten ++ d').take room := by
      rw [List.flatten_cons, List.append_assoc, eq_comm, List.take_append,
        List.take_of_length_le hfit]
    rw [List.append_assoc, htake]
    exact .short (.cons hstep hsteps) (by rw [hlen]; omega) (by rw [hlen]; omega)

/-- A pass takes items, at least one if it finds a complete frame and room, and queues no more
than their payloads. -/
theorem Pass.items (h : Pass fifo queue room e fifo' queue') :
    ∃ os, Steps receiver fifo os fifo' ∧
      queue'.length ≤ queue.length + os.reduceOption.flatten.length ∧
      (2 ≤ fifo.count frameDelimiter → 0 < room → os ≠ []) := by
  cases h with
  | @drained ds _ hsteps _ hstop =>
    refine ⟨ds.map some, hsteps, ?_, ?_⟩
    · rw [reduceOption_map_some, List.length_append]
    · intro hcount hroom hnil
      obtain rfl : ds = [] := List.map_eq_nil_iff.1 hnil
      obtain rfl : fifo = fifo' := (Steps.refl fifo).rest_unique hsteps
      rcases hstop with hstuck | hfull
      · have := step_eq_none_iff.1 hstuck
        omega
      · exact absurd hfull hroom.ne
  | @malformed ds _ hsteps _ =>
    refine ⟨ds.map some ++ [none], hsteps, ?_, by simp⟩
    rw [List.reduceOption_append, reduceOption_map_some, List.length_append]
    simp
  | @short ds d _ hsteps _ _ =>
    refine ⟨ds.map some ++ [some d], hsteps, ?_, by simp⟩
    rw [List.reduceOption_append, reduceOption_map_some, List.flatten_append, List.length_append,
      List.reduceOption_singleton, Option.toList_some, List.flatten_singleton]
    exact Nat.add_le_add_left (List.length_take_le' ..) _

/-! ## Passes that cut no payload -/

/-- Every payload a pass gets to fits the room left at that point. -/
def NeverShort (fifo : List UInt8) (room : Nat) : Prop :=
  ∀ (ds : List (List UInt8)) (d rest : List UInt8),
    Steps receiver fifo (ds.map some ++ [some d]) rest → ds.flatten.length < room →
      ds.flatten.length + d.length ≤ room

theorem neverShort_of_length_le (h : fifo.length ≤ room) : NeverShort fifo room := by
  intro ds d rest hsteps _
  have := length_payloads_le hsteps
  rw [List.reduceOption_append, reduceOption_map_some, List.flatten_append, List.length_append,
    List.reduceOption_singleton, Option.toList_some, List.flatten_singleton] at this
  omega

/-- Such a pass queues the payloads of the items it takes. -/
theorem Pass.taken (h : Pass fifo queue room e fifo' queue') (hfit : NeverShort fifo room) :
    ∃ os, Steps receiver fifo os fifo' ∧ queue' = queue ++ os.reduceOption.flatten := by
  cases h with
  | @drained ds _ hsteps _ _ =>
    exact ⟨ds.map some, hsteps, by rw [reduceOption_map_some]⟩
  | @malformed ds _ hsteps _ =>
    refine ⟨ds.map some ++ [none], hsteps, ?_⟩
    rw [List.reduceOption_append, reduceOption_map_some]
    simp
  | @short ds d _ hsteps hroom hshort =>
    have := hfit ds d fifo' hsteps hroom
    omega

/-- A pass over the front of encodings whose payloads all fit takes whole payloads until no complete
frame is left. -/
theorem Pass.aligned (h : Pass fifo queue room e fifo' queue') {rest : List UInt8}
    {ds : List (List UInt8)} (hds : ∀ d ∈ ds, ValidPayload d)
    (hstream : fifo ++ rest = ds.flatMap encode) (hfits : ds.flatten.length ≤ room) :
    ∃ taken left, ds = taken ++ left ∧ e = .ok ∧ Steps receiver fifo (taken.map some) fifo' ∧
      receiver.step fifo' = none ∧ queue' = queue ++ taken.flatten ∧
      fifo' ++ rest = left.flatMap encode := by
  cases h with
  | @drained ds' _ hsteps hroom hstop =>
    obtain ⟨taken, left, rfl, htaken, hleft⟩ := steps_aligned hds hstream hsteps
    obtain rfl : ds' = taken := List.map_injective_iff.2 (Option.some_injective _) htaken
    refine ⟨ds', left, rfl, rfl, hsteps, ?_, rfl, hleft⟩
    rcases hstop with hstuck | hfull
    · exact hstuck
    · have hnil : left = [] := by
        by_contra hne
        have := length_flatten_pos (fun d hd => hds d (List.mem_append_right _ hd)) hne
        rw [List.flatten_append, List.length_append] at hfits
        omega
      subst hnil
      rw [(List.append_eq_nil_iff.1 hleft).1]
      exact step_nil
  | @malformed ds' _ hsteps hroom =>
    obtain ⟨taken, left, -, htaken, -⟩ := steps_aligned hds hstream hsteps
    have hmem : none ∈ taken.map some := htaken ▸ List.mem_append_right _ (List.mem_singleton_self _)
    simp at hmem
  | @short ds' d _ hsteps hroom hshort =>
    rw [← List.map_singleton, ← List.map_append] at hsteps
    obtain ⟨taken, left, rfl, htaken, -⟩ := steps_aligned hds hstream hsteps
    obtain rfl : ds' ++ [d] = taken := List.map_injective_iff.2 (Option.some_injective _) htaken
    simp only [List.flatten_append, List.length_append, List.flatten_singleton] at hfits
    omega

/-! ## The decoding loop -/

/-- One turn of the loop on a port with a complete frame and room. -/
theorem decodeLoop_turn (portIndex n : Nat) {port : Port}
    (hcount : 2 ≤ port.rxFifo.contents.count frameDelimiter) (hroom : 0 < port.rxQueue.room) :
    ∃ rxFifo, rxFifo.capacity = port.rxFifo.capacity ∧
      ((receiver.step port.rxFifo.contents = some (none, rxFifo.contents) ∧
          decodeRxFifoIntoReadQueueLoop portIndex (n + 1) port =
            (.errorInvalidFrame, { port with rxFifo := rxFifo })) ∨
        ∃ d rxQueue, receiver.step port.rxFifo.contents = some (some d, rxFifo.contents) ∧
          rxQueue.capacity = port.rxQueue.capacity ∧
          rxQueue.contents = port.rxQueue.contents ++ d.take port.rxQueue.room ∧
          decodeRxFifoIntoReadQueueLoop portIndex (n + 1) port =
            if port.rxQueue.room < d.length then
              (.errorInvalidFrame, { port with rxFifo := rxFifo, rxQueue := rxQueue })
            else decodeRxFifoIntoReadQueueLoop portIndex n
              { port with rxFifo := rxFifo, rxQueue := rxQueue }) := by
  have hguard : port.rxFifo.hasCompleteFrame = true ∧ port.rxQueue.size < port.rxQueue.capacity :=
    ⟨by simpa using hcount, by rw [Ring.size_eq]; unfold Ring.room at hroom; omega⟩
  refine ⟨port.rxFifo.readFrame.2, port.rxFifo.capacity_readFrame, ?_⟩
  rw [decodeRxFifoIntoReadQueueLoop, if_pos hguard]
  rcases port.rxFifo.readFrame_step portIndex hcount with
    ⟨hstep, hread | ⟨hread, hdecode⟩⟩ | ⟨d, hstep, hread, hdecode⟩
  · refine .inl ⟨hstep, ?_⟩
    simp only [hread, ne_eq, reduceCtorEq, not_false_eq_true, if_true]
  · refine .inl ⟨hstep, ?_⟩
    simp only [hread, hdecode, ne_eq, not_true_eq_false, if_false, reduceCtorEq,
      not_false_eq_true, if_true]
  · refine .inr ⟨d, (port.rxQueue.writeBytes d).2, hstep, by simp, by simp, ?_⟩
    simp only [hread, hdecode, ne_eq, not_true_eq_false, if_false, Ring.writeBytes_fst,
      min_eq_left_iff, not_le]

theorem decodeLoop_pass (portIndex : Nat) {n : Nat} {port : Port}
    (hn : port.rxFifo.contents.length ≤ n) :
    ∃ e rxFifo rxQueue, decodeRxFifoIntoReadQueueLoop portIndex n port =
        (e, { port with rxFifo := rxFifo, rxQueue := rxQueue }) ∧
      rxFifo.capacity = port.rxFifo.capacity ∧ rxQueue.capacity = port.rxQueue.capacity ∧
      Pass port.rxFifo.contents port.rxQueue.contents port.rxQueue.room e rxFifo.contents
        rxQueue.contents := by
  induction n generalizing port with
  | zero =>
    have hnil : port.rxFifo.contents = [] := List.eq_nil_of_length_eq_zero (by omega)
    exact ⟨.ok, port.rxFifo, port.rxQueue, rfl, rfl, rfl,
      .idle (.inl (by rw [hnil]; exact step_nil))⟩
  | succ n ih =>
    by_cases hguard : 2 ≤ port.rxFifo.contents.count frameDelimiter ∧ 0 < port.rxQueue.room
    · obtain ⟨hcount, hroom⟩ := hguard
      obtain ⟨rxFifo, hcap, ⟨hstep, hrun⟩ | ⟨d, rxQueue, hstep, hqcap, hqueue, hrun⟩⟩ :=
        decodeLoop_turn portIndex n hcount hroom
      · refine ⟨_, _, _, hrun, hcap, rfl, ?_⟩
        have := @Pass.malformed port.rxFifo.contents port.rxQueue.contents port.rxQueue.room [] _
          (.single hstep) hroom
        simpa using this
      · by_cases hshort : port.rxQueue.room < d.length
        · rw [if_pos hshort] at hrun
          refine ⟨_, _, _, hrun, hcap, hqcap, ?_⟩
          rw [hqueue]
          exact @Pass.short _ _ _ [] d _ (.single hstep) hroom (by simpa using hshort)
        · rw [if_neg hshort] at hrun
          have hfits : d.length ≤ port.rxQueue.room := by omega
          rw [List.take_of_length_le hfits] at hqueue
          have hlength := receiver.step_length hstep
          have hroom' : rxQueue.room = port.rxQueue.room - d.length := by
            simp only [Ring.room, hqcap, hqueue, List.length_append]
            omega
          obtain ⟨e, rxFifo', rxQueue', hrun', hcap', hqcap', hpass⟩ :=
            @ih { port with rxFifo := rxFifo, rxQueue := rxQueue } (by dsimp only; omega)
          refine ⟨e, rxFifo', rxQueue', hrun.trans hrun', hcap'.trans hcap, hqcap'.trans hqcap, ?_⟩
          dsimp only at hpass
          rw [hqueue, hroom'] at hpass
          exact hpass.cons hstep hfits
    · refine ⟨.ok, port.rxFifo, port.rxQueue, ?_, rfl, rfl, .idle ?_⟩
      · rw [decodeRxFifoIntoReadQueueLoop, if_neg]
        rw [Ring.hasCompleteFrame_eq, decide_eq_true_iff, Ring.size_eq]
        unfold Ring.room at hguard
        omega
      · by_cases hcount : 2 ≤ port.rxFifo.contents.count frameDelimiter
        · exact .inr (by omega)
        · exact .inl (step_eq_none_iff.2 (by omega))

/-- **A decoding pass ends in one of the ways of `Pass`**, and touches `rx_fifo` and `rx_queue`
only. -/
theorem decode_pass (portIndex : Nat) (port : Port) :
    ∃ e rxFifo rxQueue, decodeRxFifoIntoReadQueue portIndex port =
        (e, { port with rxFifo := rxFifo, rxQueue := rxQueue }) ∧
      rxFifo.capacity = port.rxFifo.capacity ∧ rxQueue.capacity = port.rxQueue.capacity ∧
      Pass port.rxFifo.contents port.rxQueue.contents port.rxQueue.room e rxFifo.contents
        rxQueue.contents :=
  decodeLoop_pass portIndex port.rxFifo.size_eq.ge

/-- A pass with nothing to do leaves the port as it is. -/
theorem decode_idle (portIndex : Nat) {port : Port}
    (h : receiver.step port.rxFifo.contents = none ∨ port.rxQueue.room = 0) :
    decodeRxFifoIntoReadQueue portIndex port = (.ok, port) := by
  rw [decodeRxFifoIntoReadQueue]
  cases port.rxFifo.size with
  | zero => rfl
  | succ n =>
    rw [decodeRxFifoIntoReadQueueLoop, if_neg]
    rw [Ring.hasCompleteFrame_eq, decide_eq_true_iff, Ring.size_eq, ← not_lt]
    rw [step_eq_none_iff, Ring.room] at h
    omega

/-! ## Reading -/

/-- A read of something that is there returns something. -/
theorem take_ne_nil {queue : List UInt8} (h : queue ≠ []) {length : Nat} (hlength : 0 < length) :
    queue.take length ≠ [] := by
  intro hnil
  cases List.take_eq_nil_iff.1 hnil with
  | inl hzero => exact hlength.ne' hzero
  | inr hempty => exact h hempty

/-- What a read returns after a pass that ended with `e`, `fifo` and `queue`. -/
def readReply (e : Error) (fifo queue : List UInt8) (length : Nat) : Reply :=
  if e ≠ .ok then .code e
  else if queue = [] ∧ fifo ≠ [] then .code .errorInvalidFrame
  else .returned (queue.take length)

/-- A read is a pass, and then hands out the front of `rx_queue` unless it fails. -/
theorem readFromStagedRx_spec (portIndex : Nat) (port : Port) (length : Nat) :
    ∃ e queue rxFifo rxQueue,
      Pass port.rxFifo.contents port.rxQueue.contents port.rxQueue.room e rxFifo.contents queue ∧
      readFromStagedRx portIndex port length =
        (readReply e rxFifo.contents queue length,
          { port with rxFifo := rxFifo, rxQueue := rxQueue }) ∧
      rxFifo.capacity = port.rxFifo.capacity ∧ rxQueue.capacity = port.rxQueue.capacity ∧
      (readReply e rxFifo.contents queue length).data ++ rxQueue.contents = queue := by
  obtain ⟨e, rxFifo, rxQueue, hrun, hcap, hqcap, hpass⟩ := decode_pass portIndex port
  unfold readFromStagedRx
  simp only [hrun, Ring.size_eq, List.length_eq_zero_iff, List.length_pos_iff]
  unfold readReply
  by_cases he : e ≠ .ok
  · refine ⟨e, _, rxFifo, rxQueue, hpass, ?_, hcap, hqcap, ?_⟩
    · rw [if_pos he, if_pos he]
    · rw [if_pos he]
      rfl
  · by_cases hempty : rxQueue.contents = [] ∧ rxFifo.contents ≠ []
    · refine ⟨e, _, rxFifo, rxQueue, hpass, ?_, hcap, hqcap, ?_⟩
      · rw [if_neg he, if_neg he, if_pos hempty, if_pos hempty]
      · rw [if_neg he, if_pos hempty]
        rfl
    · refine ⟨e, _, rxFifo, (rxQueue.readBytes length).2, hpass, ?_, hcap,
        (rxQueue.capacity_readBytes length).trans hqcap, ?_⟩
      · rw [if_neg he, if_neg he, if_neg hempty, if_neg hempty, Ring.readBytes_fst]
      · rw [if_neg he, if_neg hempty, Ring.contents_readBytes]
        exact List.take_append_drop ..

/-- A read that finds neither a complete frame nor a decoded byte leaves the port as it is. -/
theorem readFromStagedRx_idle (portIndex length : Nat) {port : Port}
    (hstuck : receiver.step port.rxFifo.contents = none) (hempty : port.rxQueue.contents = [])
    (hne : port.rxFifo.contents ≠ []) :
    readFromStagedRx portIndex port length = (.code .errorInvalidFrame, port) := by
  unfold readFromStagedRx
  rw [decode_idle portIndex (.inl hstuck)]
  simp [hempty, List.length_pos_iff.2 hne]

/-- A read with no pass to make hands out what is decoded. -/
theorem readFromStagedRx_queued (portIndex length : Nat) {port : Port}
    (h : receiver.step port.rxFifo.contents = none ∨ port.rxQueue.room = 0)
    (hne : port.rxQueue.contents ≠ []) :
    readFromStagedRx portIndex port length =
      (.returned (port.rxQueue.contents.take length),
        { port with rxQueue := (port.rxQueue.readBytes length).2 }) := by
  unfold readFromStagedRx
  rw [decode_idle portIndex h]
  simp [hne]

theorem readReply_data (e : Error) (fifo queue : List UInt8) (length : Nat)
    (h : (readReply e fifo queue length).status ≠ .ok) :
    (readReply e fifo queue length).data = [] := by
  unfold readReply at h ⊢
  split_ifs at h ⊢
  · rfl
  · rfl
  · exact absurd rfl h

/-- A read that fails returns nothing. -/
theorem readFromStagedRx_data (portIndex : Nat) (port : Port) (length : Nat)
    (h : (readFromStagedRx portIndex port length).1.status ≠ .ok) :
    (readFromStagedRx portIndex port length).1.data = [] := by
  obtain ⟨e, queue, rxFifo, rxQueue, -, hrun, -⟩ := readFromStagedRx_spec portIndex port length
  rw [hrun] at h ⊢
  exact readReply_data e _ queue length h

end Xr17v358
