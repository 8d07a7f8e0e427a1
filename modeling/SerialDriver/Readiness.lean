import SerialDriver.PortEffects
import SerialDriver.Stream

/-!
# Readiness and reading

A poll reports `messageReady` when `rx_fifo` holds two delimiters. Whether a read then returns a
byte depends on what stands between them: `Port.Readable` is the exact condition
(`messageReady_iff_readable`). Two delimiters with nothing between them are reported as ready,
counted as no frame, and rejected by the read (`messageReady_emptyFrame`).
-/

namespace Xr17v358

open Incremental

/-- What `rx_fifo` has to hold for a poll that reports `messageReady` to be followed by a read that
returns a byte. The encodings buffered, each behind noise, go on until no complete frame is left or
`rx_queue` is exactly full, and somewhere a frame is not empty. -/
def Port.Readable (port : Port) : Prop :=
  HasNonEmptyFrame port.rxFifo.contents ∧
    ∃ (blocks : List (List UInt8 × List UInt8)) (rest : List UInt8),
      (∀ b ∈ blocks, frameDelimiter ∉ b.1 ∧ ValidPayload b.2) ∧
      port.rxFifo.contents = (blocks.flatMap fun b => b.1 ++ encode b.2) ++ rest ∧
      (blocks.map Prod.snd).flatten.length ≤ port.rxQueue.room ∧
      (rest.count frameDelimiter < 2 ∨
        (blocks.map Prod.snd).flatten.length = port.rxQueue.room)

variable {fifo fifo' queue queue' : List UInt8} {room : Nat} {e : Error}

/-- The pass decodes until no complete frame is left or the room is used up. -/
def Drains (fifo : List UInt8) (room : Nat) : Prop :=
  ∃ (ds : List (List UInt8)) (rest : List UInt8), Steps receiver fifo (ds.map some) rest ∧
    ds.flatten.length ≤ room ∧ (receiver.step rest = none ∨ ds.flatten.length = room)

theorem readable_iff {port : Port} :
    port.Readable ↔ HasNonEmptyFrame port.rxFifo.contents ∧
      Drains port.rxFifo.contents port.rxQueue.room := by
  refine and_congr_right fun _ => ⟨?_, ?_⟩
  · rintro ⟨blocks, rest, hblocks, hfifo, hroom, hstop⟩
    refine ⟨blocks.map Prod.snd, rest, ?_, hroom, hstop.imp_left step_eq_none_iff.2⟩
    rw [hfifo, List.map_map]
    exact steps_blocks hblocks rest
  · rintro ⟨ds, rest, hsteps, hroom, hstop⟩
    obtain ⟨blocks, hblocks, rfl, hfifo⟩ := exists_blocks hsteps
    exact ⟨blocks, rest, hblocks, hfifo, hroom, hstop.imp_left step_eq_none_iff.1⟩

/-! ## When a pass succeeds -/

theorem length_flatten_le {ds ds' : List (List UInt8)} (h : ds.map some <+: ds'.map some) :
    ds.flatten.length ≤ ds'.flatten.length := by
  have hpre := h.reduceOption
  rw [reduceOption_map_some, reduceOption_map_some] at hpre
  obtain ⟨left, rfl⟩ := hpre
  rw [List.flatten_append, List.length_append]
  exact Nat.le_add_right ..

/-- A run of payloads that drains the buffer does not stop in front of another item while there is
room. -/
theorem not_drains {ds : List (List UInt8)} {o : Option (List UInt8)}
    (hsteps : Steps receiver fifo (ds.map some ++ [o]) fifo') (hroom : ds.flatten.length < room)
    (hfits : ∀ d, o = some d → room < ds.flatten.length + d.length) : ¬ Drains fifo room := by
  rintro ⟨ds', rest, hdrain, hroom', hstop⟩
  have hne : ∀ left, ds'.map some ≠ ds.map some ++ [o] ++ left := by
    intro left heq
    cases o with
    | none =>
      have hmem : none ∈ ds'.map some := by
        rw [heq]
        simp
      simp at hmem
    | some d =>
      have hshort := hfits d rfl
      have hle := @length_flatten_le (ds ++ [d]) ds' ⟨left, by rw [heq]; simp⟩
      rw [List.flatten_append, List.length_append, List.flatten_singleton] at hle
      omega
  rcases hsteps.comparable hdrain with ⟨left, heq, -⟩ | ⟨left, heq, hleft⟩
  · exact hne left heq
  rcases hstop with hstuck | hfull
  · obtain ⟨rfl, -⟩ := hleft.eq_nil hstuck
    exact hne [] (by rw [heq]; simp)
  · rcases List.prefix_concat_iff.1 ⟨left, heq.symm⟩ with hall | hpre
    · exact hne [] (by rw [hall, List.append_nil])
    · have := length_flatten_le hpre
      omega

theorem Pass.ok_iff (h : Pass fifo queue room e fifo' queue') : e = .ok ↔ Drains fifo room := by
  cases h with
  | @drained ds _ hsteps hroom hstop => exact iff_of_true rfl ⟨ds, fifo', hsteps, hroom, hstop⟩
  | malformed hsteps hroom =>
    exact iff_of_false (by simp) (not_drains hsteps hroom (by simp))
  | short hsteps hroom hshort =>
    exact iff_of_false (by simp) (not_drains hsteps hroom (by rintro _ ⟨⟩; exact hshort))

/-- A pass that succeeds in front of a complete frame leaves something to read. -/
theorem Pass.queue_ne_nil (h : Pass fifo queue room .ok fifo' queue')
    (hcount : 2 ≤ fifo.count frameDelimiter) (hqueue : room = 0 → queue ≠ []) : queue' ≠ [] := by
  cases h with
  | @drained ds _ hsteps hroom hstop =>
    intro hnil
    obtain ⟨hempty, hflat⟩ := List.append_eq_nil_iff.1 hnil
    cases ds with
    | nil =>
      obtain rfl : fifo = fifo' := (Steps.refl fifo).rest_unique hsteps
      rcases hstop with hstuck | hfull
      · have := step_eq_none_iff.1 hstuck
        omega
      · exact hqueue hfull.symm hempty
    | cons d ds =>
      have := (valid_of_steps hsteps d (List.mem_cons_self ..)).1
      rw [List.flatten_cons, List.append_eq_nil_iff] at hflat
      rw [hflat.1] at this
      exact absurd this (by simp)

/-! ## Reading after a poll -/

variable {d : Driver}

theorem read_iff_drains (hd : d.Ready) (p : PortIndex)
    (hcount : 2 ≤ (d.ports p).rxFifo.contents.count frameDelimiter) {length : Nat}
    (hlength : 0 < length) :
    ((read d p ⟨.valid, length⟩ .valid).1.status = .ok ∧
        (read d p ⟨.valid, length⟩ .valid).1.data ≠ []) ↔
      Drains (d.ports p).rxFifo.contents (d.ports p).rxQueue.room := by
  obtain ⟨e, queue, rxFifo, rxQueue, hpass, hrun, -⟩ :=
    readFromStagedRx_spec p (d.ports p) length
  rw [read_reply hd p ⟨.valid, length⟩ (by simp [OutBuffer.missing]), hrun, ← hpass.ok_iff]
  by_cases he : e = .ok
  · subst he
    have hqueue : queue ≠ [] := hpass.queue_ne_nil hcount (hd.sized p).queue_ne_nil
    rw [readReply, if_neg (by simp), if_neg fun h => hqueue h.1]
    exact iff_of_true ⟨rfl, take_ne_nil hqueue hlength⟩ rfl
  · rw [readReply, if_pos he]
    exact iff_of_false (fun h => he h.1) he

theorem one_le_fifoLevel_iff (hd : d.Ready) (p : PortIndex) :
    1 ≤ (fifoLevel d p).1 ↔ HasNonEmptyFrame (d.ports p).rxFifo.contents := by
  rw [fifoLevel, onPort_out, ensureStateInitialized_of_ready hd, Ring.frameCount_eq]
  exact one_le_frameCount_iff

/-- The port a poll services. -/
def Call.polls : Call → Option Nat
  | pollPort portIndex => some portIndex
  | pollHwPort _ portIndex => some portIndex
  | _ => none

/-- A poll reports `messageReady` for two delimiters. -/
theorem two_le_count_of_messageReady {m : DeviceMemory} {c : Call} {p : PortIndex}
    (hd : (ensureStateInitialized d).Ready) (hpoll : c.polls = some p.val)
    (hready : (Event.mk d m c).reply.status = .messageReady) :
    2 ≤ ((Event.mk d m c).after.ports p).rxFifo.contents.count frameDelimiter := by
  by_contra hcount
  cases c with
  | pollPort portIndex =>
    obtain rfl : portIndex = p := Option.some.inj hpoll
    change (pollPort d p).1.status = .messageReady at hready
    change ¬ 2 ≤ ((pollPort d p).2.ports p).rxFifo.contents.count frameDelimiter at hcount
    have hensure : pollPort d p = pollPort (ensureStateInitialized d) p := onPort_ensure
    rw [hensure] at hready hcount
    rw [pollPort_reply hd, if_neg hcount] at hready
    exact absurd hready (by simp [Reply.code])
  | pollHwPort deviceBase portIndex =>
    obtain rfl : portIndex = p := Option.some.inj hpoll
    change (pollHwPort d m deviceBase p).1.1.status = .messageReady at hready
    change ¬ 2 ≤ ((pollHwPort d m deviceBase p).2.ports p).rxFifo.contents.count
      frameDelimiter at hcount
    cases deviceBase with
    | none =>
      rw [pollHwPort, onPort_out] at hready
      exact absurd hready (by simp [Reply.code])
    | some deviceBase =>
      have hensure : pollHwPort d m (some deviceBase) p =
          pollHwPort (ensureStateInitialized d) m (some deviceBase) p := onPort_ensure
      rw [hensure] at hready hcount
      rw [pollHwPort_reply hd, if_neg hcount] at hready
      exact absurd hready (by simp [Reply.code])
  | _ => exact absurd hpoll (by simp [Call.polls])

/-- **Readiness means readable exactly on `Port.Readable` ports**: after a poll of a reachable state
reports `messageReady`, the next read returns a byte and the frame counter is positive if and only
if the port is readable. -/
theorem messageReady_iff_readable (hd : Reachable d) (m : DeviceMemory) {c : Call} {p : PortIndex}
    (hpoll : c.polls = some p.val) (hready : (Event.mk d m c).reply.status = .messageReady)
    {length : Nat} (hlength : 0 < length) :
    ((read (Event.mk d m c).after p ⟨.valid, length⟩ .valid).1.status = .ok ∧
        (read (Event.mk d m c).after p ⟨.valid, length⟩ .valid).1.data ≠ [] ∧
        1 ≤ (fifoLevel (Event.mk d m c).after p).1) ↔
      ((Event.mk d m c).after.ports p).Readable := by
  have hcount := two_le_count_of_messageReady (reachable_ensure_ready hd) hpoll hready
  have hafter : (Event.mk d m c).after.Ready := by
    obtain ⟨es, hrun⟩ := hd
    rcases reachable_ready ⟨_, hrun.snoc m c trivial⟩ with hzero | h
    · rw [hzero] at hcount
      exact absurd hcount (Nat.not_succ_le_zero 1)
    · exact h
  rw [readable_iff, ← and_assoc, read_iff_drains hafter p hcount hlength,
    one_le_fifoLevel_iff hafter p, and_comm]

theorem messageReady_iff_readable_onePacket :
    (Event.mk (injected [0x7E, 1, 0x7E]) default (.pollPort 0)).reply.status = .messageReady ∧
      (read (Event.mk (injected [0x7E, 1, 0x7E]) default (.pollPort 0)).after 0 ⟨.valid, 4⟩
        .valid).1.data ≠ [] ∧
      1 ≤ (fifoLevel (Event.mk (injected [0x7E, 1, 0x7E]) default (.pollPort 0)).after 0).1 := by
  have hready : (Event.mk (injected [0x7E, 1, 0x7E]) default (.pollPort 0)).reply.status =
      .messageReady := by decide +kernel
  have hreadable := (messageReady_iff_readable (reachable_injected _) default (p := 0) rfl hready
    (show 0 < 4 by decide)).2
    ⟨⟨[], [1], [], by decide +kernel, by decide, by decide⟩, [([], [1])], [], by decide,
      by decide +kernel, by decide +kernel, .inl (by decide)⟩
  exact ⟨hready, hreadable.2⟩

/-- Two delimiters with nothing between them are ready, and yet no frame. -/
theorem messageReady_emptyFrame :
    Reachable (injected [0x7E, 0x7E]) ∧
      (Event.mk (injected [0x7E, 0x7E]) default (.pollPort 0)).reply.status = .messageReady ∧
      (read (Event.mk (injected [0x7E, 0x7E]) default (.pollPort 0)).after 0 ⟨.valid, 1⟩
        .valid).1.status = .errorInvalidFrame ∧
      (fifoLevel (Event.mk (injected [0x7E, 0x7E]) default (.pollPort 0)).after 0).1 = 0 :=
  ⟨reachable_injected _, by decide +kernel, by decide +kernel, by decide +kernel⟩

end Xr17v358
