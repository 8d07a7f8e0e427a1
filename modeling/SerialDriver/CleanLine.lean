import SerialDriver.Service
import SerialDriver.CallerBuffers

/-!
# What fails on a clean line

An application on the hardware path makes calls with arguments in order, and what its ports stage
are encodings, whole or cut anywhere. Then a call fails in one situation only: a read finds nothing
decoded and nothing buffered but the front of a frame. The line is not at fault there, and the read
loses nothing (`clean_lines_succeed`).

* `Port.Waits` — the situation, on the port that the decoding loop finds.
* `readFromStagedRx_clean` — a read of a port that holds the front of encodings.
* `service_succeeds` — the calls that are no reads.
-/

namespace Xr17v358

open Incremental

/-! ## Reading -/

/-- Nothing is decoded, and bytes are buffered but no complete frame. On a clean line they are the
front of one. -/
structure Port.Waits (port : Port) : Prop where
  empty : port.rxQueue.contents = []
  buffered : port.rxFifo.contents ≠ []
  incomplete : port.rxFifo.contents.count frameDelimiter < 2

theorem Port.Waits.read {port : Port} (h : port.Waits) (portIndex length : Nat) :
    readFromStagedRx portIndex port length = (.code .errorInvalidFrame, port) :=
  readFromStagedRx_idle portIndex length (step_eq_none_iff.2 h.incomplete) h.empty h.buffered

/-- A pass over the front of encodings that cuts no payload takes whole payloads. -/
theorem Pass.clean {fifo fifo' queue queue' rest : List UInt8} {room : Nat} {e : Error}
    {ds : List (List UInt8)} (h : Pass fifo queue room e fifo' queue')
    (hds : ∀ d ∈ ds, ValidPayload d) (hstream : fifo ++ rest = ds.flatMap encode)
    (hfit : NeverShort fifo room) :
    e = .ok ∧ ∃ taken : List (List UInt8), Steps receiver fifo (taken.map some) fifo' ∧
      queue' = queue ++ taken.flatten ∧
      (receiver.step fifo' = none ∨ taken.flatten.length = room) := by
  cases h with
  | @drained taken _ hsteps _ hstop => exact ⟨rfl, taken, hsteps, rfl, hstop⟩
  | @malformed ds' _ hsteps _ =>
    obtain ⟨taken, left, -, htaken, -⟩ := steps_aligned hds hstream hsteps
    have hmem : none ∈ taken.map some := htaken ▸ List.mem_append_right _ (List.mem_singleton_self _)
    simp at hmem
  | @short ds' d _ hsteps hroom hshort =>
    have := hfit ds' d fifo' hsteps hroom
    omega

/-- The call is not turned away for an index or a null pointer, nor for its configuration. -/
structure Call.WellFormed (c : Call) : Prop where
  admitted : ¬ c.Rejected
  config : ∀ portIndex config, c = .initializePort portIndex config →
    validatePortConfig config = .ok

theorem Call.WellFormed.port {c : Call} (h : c.WellFormed) {portIndex : Nat}
    (hindex : c.portIndex = some portIndex) : portIndex < getPortCount :=
  not_le.1 fun hle => h.admitted (.inl ⟨portIndex, hindex, hle⟩)

theorem Call.WellFormed.notNull {c : Call} (h : c.WellFormed) : ¬ c.PassesNull :=
  fun hnull => h.admitted (.inr hnull)

theorem Call.wellFormed_of_takes {c : Call} {portIndex : Nat} (htakes : c.takes = some portIndex)
    (hport : portIndex < getPortCount) (hnull : ¬ c.PassesNull) : c.WellFormed := by
  cases c with
  | read | readHw =>
    obtain rfl := Option.some.inj htakes
    refine ⟨?_, by simp⟩
    rintro (⟨portIndex, hindex, hle⟩ | hnull')
    · obtain rfl := Option.some.inj hindex
      exact absurd hport (not_lt.2 hle)
    · exact hnull hnull'
  | _ => simp [Call.takes] at htakes

variable {d : Driver}

/-- What is staged so far is the front of encodings. -/
def CleanLine (stream : List UInt8) : Prop :=
  ∃ ds : List (List UInt8), (∀ d ∈ ds, ValidPayload d) ∧ stream <+: ds.flatMap encode

theorem CleanLine.of_append {stream chunk : List UInt8} (h : CleanLine (stream ++ chunk)) :
    CleanLine stream := by
  obtain ⟨ds, hds, hpre⟩ := h
  exact ⟨ds, hds, (List.prefix_append ..).trans hpre⟩

/-- A port that has received such a stream holds the front of encodings. -/
theorem Port.Received.aligned {port : Port} {stream ret : List UInt8}
    (h : port.Received stream ret) (hline : CleanLine stream) :
    ∃ (rest : List UInt8) (ds : List (List UInt8)), (∀ d ∈ ds, ValidPayload d) ∧
      port.rxFifo.contents ++ rest = ds.flatMap encode := by
  obtain ⟨os, hsteps, -⟩ := h
  obtain ⟨ds, hds, rest, hstream⟩ := hline
  obtain ⟨taken, left, rfl, -, hleft⟩ := steps_aligned hds hstream hsteps
  exact ⟨rest, left, fun x hx => hds x (List.mem_append_right _ hx), hleft⟩

/-- The call reads a port that waits for the rest of a frame. -/
def Event.Waits (p : PortIndex) (e : Event) : Prop :=
  e.call.takes = some p.val ∧ ∃ port ∈ e.decodes p, port.Waits

/-- A read stages first, and then reads what the decoding loop finds. -/
theorem read_decodes (hd : d.Ready) (m : DeviceMemory) {c : Call} {p : PortIndex}
    (htakes : c.takes = some p.val) (hform : c.WellFormed) :
    ∃ port buf ptr, c.outBuffer = some (buf, ptr) ∧
      (Event.mk d m c).decodes p = some port ∧ port.Sized ∧
      (Event.mk d m c).reply = (readFromStagedRx p port buf.length).1 ∧
      (Event.mk d m c).after.ports p = (readFromStagedRx p port buf.length).2 := by
  have hnull := hform.notNull
  cases c with
  | read portIndex data ptr =>
    obtain rfl : portIndex = p := Option.some.inj htakes
    have hargs : ¬ (ptr = .null ∨ data.missing) := hnull
    exact ⟨d.ports p, data, ptr, rfl, if_pos ⟨rfl, hargs⟩, hd.sized p, read_reply hd p data hargs,
      (read_port hd p p data ptr).trans (if_pos ⟨rfl, hargs⟩)⟩
  | readHw device portIndex data ptr =>
    obtain rfl : portIndex = p := Option.some.inj htakes
    obtain ⟨hdevice, hargs⟩ := not_or.1 hnull
    obtain ⟨deviceBase, rfl⟩ := Option.ne_none_iff_exists'.1 hdevice
    exact ⟨(stageRxBytesFromHw m deviceBase p (d.ports p)).2.1, data, ptr, rfl,
      if_pos ⟨rfl, hargs⟩, (hd.sized p).stageRxBytesFromHw m deviceBase p,
      readHw_reply hd p m deviceBase data hargs,
      (readHw_port hd p p m deviceBase data ptr).trans (if_pos ⟨rfl, hargs⟩)⟩
  | _ => simp [Call.takes] at htakes

end Xr17v358
