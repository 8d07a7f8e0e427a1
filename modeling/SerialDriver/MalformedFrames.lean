import SerialDriver.Calls
import SerialDriver.ReceivePass
import SerialDriver.Stream

/-!
# A malformed frame damages only itself

A decoding pass stops at the first malformed frame and reports it. Repeating passes over a stream
of frames with intact delimiters therefore reports each malformed frame once, decodes the others in
order, and leaves the unfinished tail (`decodeRepeatedly_frames`), provided the read queue never
fills up before the last malformed frame: on a full read queue a pass does nothing and reports
nothing (`decodeRepeatedly_full`).
-/

namespace Xr17v358

open Incremental

/-- Repeat `decodeRxFifoIntoReadQueue` while `rx_fifo` holds a complete frame, `n` times at most:
the statuses returned, and the port. -/
def decodeRepeatedly (portIndex : Nat) : Nat → Port → List Error × Port
  | 0, port => ([], port)
  | n + 1, port =>
    if port.rxFifo.hasCompleteFrame then
      let (error, port) := decodeRxFifoIntoReadQueue portIndex port
      let (errors, port) := decodeRepeatedly portIndex n port
      (error :: errors, port)
    else ([], port)

/-- The errors among the statuses. -/
def errorsOf (statuses : List Error) : List Error := statuses.filter (· ≠ .ok)

theorem errorsOf_cons (e : Error) (statuses : List Error) :
    errorsOf (e :: statuses) = errorsOf [e] ++ errorsOf statuses :=
  List.filter_append [e] statuses

/-! ## Items and room -/

theorem count_none_map_some (ds : List (List UInt8)) : (ds.map some).count none = 0 :=
  List.count_eq_zero.2 (by simp)

/-- The payloads fit, and the queue is not full when the last malformed frame comes up. -/
structure Fits (os : List (Option (List UInt8))) (room : Nat) : Prop where
  payloads : os.reduceOption.flatten.length ≤ room
  malformed : os.getLast? = some none → os.reduceOption.flatten.length < room

/-- The payloads of a run are not empty. -/
theorem length_pos_of_steps {s r : List UInt8} {os : List (Option (List UInt8))}
    (h : Steps receiver s os r) {d : List UInt8} (hd : some d ∈ os) : 0 < d.length := by
  induction h with
  | refl => simp at hd
  | cons hstep _ ih =>
    rcases List.mem_cons.1 hd with rfl | hd
    · exact (length_payload_lt hstep).2.1
    · exact ih hd

/-- What is left of a run that fits, once its first payloads are in the queue. -/
theorem Fits.rest {ds : List (List UInt8)} {os : List (Option (List UInt8))} {room : Nat}
    (h : Fits (ds.map some ++ os) room) : Fits os (room - ds.flatten.length) := by
  have hsplit : (ds.map some ++ os).reduceOption.flatten.length =
      ds.flatten.length + os.reduceOption.flatten.length := by
    rw [List.reduceOption_append, reduceOption_map_some, List.flatten_append, List.length_append]
  obtain ⟨hpayloads, hmalformed⟩ := h
  rw [hsplit] at hpayloads hmalformed
  refine ⟨by omega, ?_⟩
  intro hlast
  have := hmalformed (by rw [List.getLast?_append, hlast]; rfl)
  omega

theorem Fits.tail {os : List (Option (List UInt8))} {room : Nat} (h : Fits (none :: os) room) :
    Fits os room := by
  refine ⟨h.payloads, ?_⟩
  intro hlast
  apply h.malformed
  cases os with
  | nil => simp at hlast
  | cons o os => rwa [List.getLast?_cons_cons]

/-- A pass never fills the queue with items left to take. -/
theorem Fits.eq_nil {s r : List UInt8} {os : List (Option (List UInt8))}
    (h : Fits os 0) (hrun : Steps receiver s os r) : os = [] := by
  rcases List.eq_nil_or_concat os with rfl | ⟨init, o, rfl⟩
  · rfl
  · rw [List.concat_eq_append] at h hrun
    cases o with
    | none => exact absurd (h.malformed (by simp)) (Nat.not_lt_zero _)
    | some d =>
      have hpos := length_pos_of_steps hrun (List.mem_append_right init (List.mem_singleton_self _))
      have := h.payloads
      simp only [List.reduceOption_append, List.flatten_append, List.length_append,
        List.reduceOption_cons_of_some, List.flatten_cons] at this
      omega

/-! ## One pass -/

/-- A pass over a stream that fits takes payloads up to the first malformed frame, which it
reports, or up to the end. -/
theorem Pass.fits {fifo queue fifo' queue' t : List UInt8} {room : Nat} {e : Error}
    {os : List (Option (List UInt8))} (hpass : Pass fifo queue room e fifo' queue')
    (hsteps : Steps receiver fifo os t) (hstuck : receiver.step t = none) (hfits : Fits os room) :
    ∃ (ds : List (List UInt8)) (rest : List (Option (List UInt8))),
      Steps receiver fifo' rest t ∧ queue' = queue ++ ds.flatten ∧
      Fits rest (room - ds.flatten.length) ∧
      ((os = ds.map some ∧ rest = [] ∧ e = .ok) ∨
        (os = ds.map some ++ none :: rest ∧ e = .errorInvalidFrame)) := by
  cases hpass with
  | @drained ds _ hrun hroom hstop =>
    obtain ⟨rest, rfl, hrest⟩ := hrun.extends hsteps hstuck
    obtain rfl : rest = [] := by
      rcases hstop with hnone | hfull
      · exact (hrest.eq_nil hnone).1
      · have hleft := hfits.rest
        rw [hfull, Nat.sub_self] at hleft
        exact hleft.eq_nil hrest
    exact ⟨ds, [], hrest, rfl, hfits.rest, .inl ⟨List.append_nil _, rfl, rfl⟩⟩
  | @malformed ds _ hrun hroom =>
    obtain ⟨rest, rfl, hrest⟩ := hrun.extends hsteps hstuck
    rw [List.append_assoc, List.singleton_append] at hfits ⊢
    exact ⟨ds, rest, hrest, rfl, hfits.rest.tail, .inr ⟨rfl, rfl⟩⟩
  | @short ds d _ hrun hroom hshort =>
    obtain ⟨rest, rfl, hrest⟩ := hrun.extends hsteps hstuck
    have := hfits.payloads
    simp only [List.append_assoc, List.singleton_append, List.reduceOption_append,
      reduceOption_map_some, List.reduceOption_cons_of_some, List.flatten_append,
      List.flatten_cons, List.length_append] at this
    omega

/-- What such a pass takes off the items: the payloads it queues and the error it reports. -/
theorem items_share {ds : List (List UInt8)} {os rest : List (Option (List UInt8))} {e : Error}
    (h : (os = ds.map some ∧ rest = [] ∧ e = .ok) ∨
      (os = ds.map some ++ none :: rest ∧ e = .errorInvalidFrame)) :
    (rest = [] ∨ rest.length < os.length) ∧
      os.reduceOption.flatten = ds.flatten ++ rest.reduceOption.flatten ∧
      List.replicate (os.count none) Error.errorInvalidFrame =
        errorsOf [e] ++ List.replicate (rest.count none) .errorInvalidFrame := by
  rcases h with ⟨rfl, rfl, rfl⟩ | ⟨rfl, rfl⟩
  · refine ⟨.inl rfl, ?_, ?_⟩
    · rw [reduceOption_map_some]
      simp
    · rw [count_none_map_some]
      rfl
  · refine ⟨.inr ?_, ?_, ?_⟩
    · simp only [List.length_append, List.length_cons]
      omega
    · rw [List.reduceOption_append, reduceOption_map_some, List.flatten_append]
      rfl
    · rw [List.count_append, count_none_map_some, List.count_cons_self, Nat.zero_add,
        List.replicate_succ]
      rfl

/-! ## Repeated passes -/

/-- **Repeated passes** over a stream that fits report the malformed frames and queue the payloads
of the others. -/
theorem decodeRepeatedly_spec (portIndex : Nat) {n : Nat} {port : Port} {t : List UInt8}
    {os : List (Option (List UInt8))} (hn : os.length ≤ n)
    (hsteps : Steps receiver port.rxFifo.contents os t) (hstuck : receiver.step t = none)
    (hfits : Fits os port.rxQueue.room) :
    ∃ statuses rxFifo rxQueue, decodeRepeatedly portIndex n port =
        (statuses, { port with rxFifo := rxFifo, rxQueue := rxQueue }) ∧
      errorsOf statuses = List.replicate (os.count none) .errorInvalidFrame ∧
      rxFifo.contents = t ∧
      rxQueue.contents = port.rxQueue.contents ++ os.reduceOption.flatten := by
  induction n generalizing port os with
  | zero =>
    obtain rfl : os = [] := List.eq_nil_of_length_eq_zero (by omega)
    exact ⟨[], port.rxFifo, port.rxQueue, rfl, rfl, hsteps.rest_unique (.refl _) |>.symm ▸ rfl,
      by simp⟩
  | succ n ih =>
    rw [decodeRepeatedly]
    by_cases hcount : 2 ≤ port.rxFifo.contents.count frameDelimiter
    · obtain ⟨e, rxFifo, rxQueue, hrun, -, hcap, hpass⟩ := decode_pass portIndex port
      obtain ⟨ds, rest, hrest, hqueue, hfits', hcases⟩ := hpass.fits hsteps hstuck hfits
      have hroom : rxQueue.room = port.rxQueue.room - ds.flatten.length := by
        simp only [Ring.room, hcap, hqueue, List.length_append]
        omega
      obtain ⟨hless, hpayloads, herror⟩ := items_share hcases
      have hlen : rest.length ≤ n := by
        rcases hless with rfl | hlt
        · exact Nat.zero_le _
        · omega
      obtain ⟨statuses, rxFifo', rxQueue', hrun', herrors, hfifo', hqueue'⟩ :=
        @ih { port with rxFifo := rxFifo, rxQueue := rxQueue } rest hlen hrest
          (by rw [← hroom] at hfits'; exact hfits')
      refine ⟨e :: statuses, rxFifo', rxQueue', ?_, ?_, hfifo', ?_⟩
      · rw [if_pos (by simpa using hcount)]
        simp only [hrun, hrun']
      · rw [errorsOf_cons, herrors, herror]
      · rw [hpayloads, ← List.append_assoc, ← hqueue]
        exact hqueue'
    · obtain ⟨rfl, rfl⟩ := hsteps.eq_nil (step_eq_none_iff.2 (by omega))
      exact ⟨[], port.rxFifo, port.rxQueue, if_neg (by simpa using hcount), rfl, rfl, by simp⟩

/-! ## Streams of frames -/

/-- Frames with intact delimiters, each behind noise: pairs of noise and body. -/
def frameStream (frames : List (List UInt8 × List UInt8)) : List UInt8 :=
  frames.flatMap fun f => f.1 ++ frameDelimiter :: (f.2 ++ [frameDelimiter])

/-- No delimiter inside noise or a body, and no body past the driver's frame buffer. -/
def Intact (frames : List (List UInt8 × List UInt8)) : Prop :=
  ∀ f ∈ frames, frameDelimiter ∉ f.1 ∧ frameDelimiter ∉ f.2 ∧ f.2.length ≤ 2048

/-- The payloads of the well-formed frames. -/
def goodPayloads (frames : List (List UInt8 × List UInt8)) : List (List UInt8) :=
  frames.filterMap fun f => payloadOf f.2

theorem steps_frameStream {frames : List (List UInt8 × List UInt8)} (h : Intact frames)
    (t : List UInt8) :
    Steps receiver (frameStream frames ++ t) (frames.map fun f => payloadOf f.2) t := by
  induction frames with
  | nil => exact .refl t
  | cons f frames ih =>
    obtain ⟨hn, hb, hlen⟩ := h f (List.mem_cons_self ..)
    refine .cons ?_ (ih fun f hf => h f (List.mem_cons_of_mem _ hf))
    have hstep := extract_fits hn hb (by unfold maxEncodedByteCount queueCapacity; omega)
      (frameStream frames ++ t)
    rw [← hstep]
    simp [frameStream, receiver]

/-- **A malformed frame with intact delimiters damages only itself.** When the payloads fit, with
a byte to spare if the last frame is malformed, enough passes report every malformed frame exactly
once and nothing else, queue the other payloads in order, and leave the unfinished tail. -/
theorem decodeRepeatedly_frames (portIndex : Nat) {port : Port}
    {frames : List (List UInt8 × List UInt8)} {t : List UInt8} (hframes : Intact frames)
    (ht : frameDelimiter ∉ t) (hfifo : port.rxFifo.contents = frameStream frames ++ t)
    (hroom : (goodPayloads frames).flatten.length ≤ port.rxQueue.room)
    (hlast : ∀ f, frames.getLast? = some f → payloadOf f.2 = none →
      (goodPayloads frames).flatten.length < port.rxQueue.room) :
    ∃ n₀, ∀ n ≥ n₀, ∃ statuses rxFifo rxQueue,
      decodeRepeatedly portIndex n port =
        (statuses, { port with rxFifo := rxFifo, rxQueue := rxQueue }) ∧
      errorsOf statuses =
        List.replicate (frames.countP fun f => payloadOf f.2 = none) .errorInvalidFrame ∧
      rxFifo.contents = t ∧
      rxQueue.contents = port.rxQueue.contents ++ (goodPayloads frames).flatten := by
  have hgood : (frames.map fun f => payloadOf f.2).reduceOption = goodPayloads frames := by
    rw [List.reduceOption, List.filterMap_map]
    rfl
  have hbad : (frames.map fun f => payloadOf f.2).count none =
      frames.countP fun f => payloadOf f.2 = none := by
    rw [List.count, List.countP_map]
    apply List.countP_congr
    intro f _
    simp
  have hfits : Fits (frames.map fun f => payloadOf f.2) port.rxQueue.room := by
    refine ⟨hgood ▸ hroom, ?_⟩
    intro hnone
    rw [List.getLast?_map, Option.map_eq_some_iff] at hnone
    obtain ⟨f, hf, hmalformed⟩ := hnone
    exact hgood ▸ hlast f hf hmalformed
  refine ⟨frames.length, ?_⟩
  intro n hn
  have hlen : (frames.map fun f => payloadOf f.2).length ≤ n := by rwa [List.length_map]
  have hspec := decodeRepeatedly_spec portIndex hlen
    (hfifo ▸ steps_frameStream hframes t)
    (step_eq_none_iff.2 (by rw [List.count_eq_zero.2 ht]; exact Nat.two_pos)) hfits
  rw [hgood, hbad] at hspec
  exact hspec

theorem decodeRepeatedly_frames_badEscape :
    ∃ n₀, ∀ n ≥ n₀, ∃ statuses rxFifo rxQueue,
      decodeRepeatedly 0 n (.holding [9, 0x7E, 0x7D, 0x7E, 0x7E, 1, 0x7E, 5]) =
        (statuses, { Port.holding [9, 0x7E, 0x7D, 0x7E, 0x7E, 1, 0x7E, 5] with
          rxFifo := rxFifo, rxQueue := rxQueue }) ∧
      errorsOf statuses = [.errorInvalidFrame] ∧ rxFifo.contents = [5] ∧
      rxQueue.contents = [1] := by
  have hframes : Intact [([9], [0x7D]), ([], [1])] := by
    intro f hf
    fin_cases hf <;> decide
  have hfifo : (Port.holding [9, 0x7E, 0x7D, 0x7E, 0x7E, 1, 0x7E, 5]).rxFifo.contents =
      frameStream [([9], [0x7D]), ([], [1])] ++ [5] := by
    rw [Port.holding, Ring.contents_writeBytes]
    rfl
  have hroom : (Port.holding [9, 0x7E, 0x7D, 0x7E, 0x7E, 1, 0x7E, 5]).rxQueue.room =
      ringBufferStorageCapacity := Ring.room_reset _ le_rfl
  obtain ⟨n₀, h⟩ := decodeRepeatedly_frames 0 hframes (t := [5]) (by decide) hfifo
    (by rw [hroom]; decide) (by
      rintro f ⟨⟩ -
      rw [hroom]
      decide)
  exact ⟨n₀, h⟩

/-- A port whose `rx_queue` is full and whose `rx_fifo` holds one empty frame. -/
def fullQueuePort : Port :=
  { Port.holding [0x7E, 0x7E] with
    rxQueue := ((Driver.zero.ports 0).reset.rxQueue.writeBytes
      (List.replicate ringBufferStorageCapacity 0)).2 }

/-- On a full read queue every pass succeeds and does nothing, so a malformed frame is never
reported and never leaves `rx_fifo`. -/
theorem decodeRepeatedly_full :
    Intact [([], [])] ∧ fullQueuePort.rxFifo.contents = frameStream [([], [])] ++ [] ∧
      (goodPayloads [([], [])]).flatten.length ≤ fullQueuePort.rxQueue.room ∧
      payloadOf [] = none ∧
      ∀ n, errorsOf (decodeRepeatedly 0 n fullQueuePort).1 = [] ∧
        (decodeRepeatedly 0 n fullQueuePort).2.rxFifo.contents = [0x7E, 0x7E] := by
  have hfifo : fullQueuePort.rxFifo.contents = [0x7E, 0x7E] := by
    rw [fullQueuePort, Port.holding, Ring.contents_writeBytes]
    rfl
  have hfull : fullQueuePort.rxQueue.room = 0 := by
    rw [fullQueuePort, Ring.room_writeBytes, List.length_replicate]
    exact Nat.sub_self ringBufferStorageCapacity
  refine ⟨by simp [Intact], hfifo, Nat.zero_le _, rfl, ?_⟩
  intro n
  induction n with
  | zero => exact ⟨rfl, hfifo⟩
  | succ n ih =>
    have hcomplete : fullQueuePort.rxFifo.hasCompleteFrame = true := by
      rw [Ring.hasCompleteFrame_eq, hfifo]
      decide
    rw [decodeRepeatedly, if_pos hcomplete, decode_idle 0 (.inr hfull)]
    exact ih

end Xr17v358
