import SerialDriver.FrameTransfer
import SerialDriver.ModeledTransmit

/-!
# One transmit frame by helper

`transferNextTxFrame` moves whole frames where `pollPort` moves pieces of 256 bytes. A poll can
leave `tx_queue` at any cut of an encoding, and the helper skips to the next delimiter. After any
writes and polls it moves a front of `tx_queue` to the back of `tx_fifo` exactly when it turns the
call away or `tx_queue` begins with a delimiter (`transferNextTxFrame_moves_iff`).
-/

namespace Xr17v358

open Delimited

def Call.IsWriteOrPoll : Call → Prop
  | write .. | pollPort _ => True
  | _ => False

theorem Call.IsWriteOrPoll.isModeledTransmit {c : Call} (hc : c.IsWriteOrPoll) :
    c.IsModeledTransmit := by
  cases c with
  | write | pollPort => trivial
  | _ => exact hc.elim

theorem queueReads_eq_nil {start d : Driver} {es : List Event}
    (hrun : Run Call.IsWriteOrPoll start es d) (p : PortIndex) :
    queueReads p es = [] := by
  induction hrun with
  | nil => rfl
  | snoc _ m c hc ih =>
    rw [queueReads_snoc, ih, List.nil_append]
    cases c with
    | write | pollPort => rfl
    | _ => exact hc.elim

/-- After writes and polls the two transmit rings hold the encodings of the accepted packets,
whatever the cuts. -/
theorem outstanding_accepted {start d : Driver} {es : List Event} (hstart : FreshlyReset start)
    (hrun : Run Call.IsWriteOrPoll start es d) (p : PortIndex) :
    Outstanding (d.ports p) (accepted Call.written p es) := by
  have hnone := queueReads_eq_nil hrun p
  obtain ⟨batches, packets, haccepted, hreads, -, hout⟩ :=
    outstanding_of_run hstart (hrun.mono fun _ => Call.IsWriteOrPoll.isModeledTransmit) p
      (by simp [hnone])
  rw [hnone] at hreads
  obtain rfl : batches = [] := List.map_eq_nil_iff.1 hreads.symm
  rw [haccepted, List.flatten_nil, List.nil_append]
  exact hout

/-! ## Frames in encodings -/

/-- Between neighbouring delimiters of encodings stands a payload's stuffed form or nothing. -/
theorem length_body_le {ds : List (List UInt8)} (hds : ∀ x ∈ ds, ValidPayload x)
    {front body rest : List UInt8} (hbody : frameDelimiter ∉ body)
    (h : front ++ (frameOf body ++ rest) = ds.flatMap encode) :
    body.length + 2 ≤ maxEncodedByteCount := by
  induction ds generalizing front with
  | nil => simp [frameOf] at h
  | cons d ds ih =>
    have hd := hds d (List.mem_cons_self ..)
    have hfree := delimiter_not_mem_stuff d
    have hfits := length_encode_le d
    rw [frameOf_append, List.flatMap_cons, encode_eq hd, List.cons_append, List.append_assoc,
      List.singleton_append] at h
    rw [encode_eq hd, List.length_cons, List.length_append, List.length_singleton] at hfits
    cases front with
    | nil =>
      obtain ⟨rfl, -⟩ := split_unique hbody hfree (List.cons.inj h).2
      exact hfits
    | cons x front =>
      have htail : front ++ frameDelimiter :: (body ++ frameDelimiter :: rest) =
          serialCode.stuff d ++ frameDelimiter :: ds.flatMap encode := (List.cons.inj h).2
      by_cases hfront : frameDelimiter ∈ front
      · -- The first delimiter of the front closes this encoding.
        obtain ⟨noise, front, rfl, hnoise⟩ := List.eq_append_cons_of_mem hfront
        rw [List.append_assoc, List.cons_append] at htail
        obtain ⟨-, hlater⟩ := split_unique hnoise hfree htail
        rw [← frameOf_append] at hlater
        exact ih (fun y hy => hds y (List.mem_cons_of_mem _ hy)) hlater
      · -- The frame opens where this encoding closes, so the next one closes it at once.
        obtain ⟨-, hnext⟩ := split_unique hfront hfree htail
        cases ds with
        | nil => simp at hnext
        | cons d' ds =>
          rw [List.flatMap_cons, encode_eq (hds d' (by simp)), List.cons_append] at hnext
          obtain ⟨rfl, -⟩ := @split_unique _ _ body [] _ _ hbody (by simp) hnext
          decide

theorem firstFrame_of_frameCount {s : List UInt8} (h : frameCount s ≠ 0) :
    ∃ body rest, FirstFrame s body rest := by
  obtain ⟨n, b, r, rfl, -, -⟩ := one_le_frameCount_iff.1 (Nat.one_le_iff_ne_zero.2 h)
  apply exists_firstFrame
  rw [List.count_append, List.count_cons_self, List.count_append, List.count_cons_self]
  omega

/-! ## The helper -/

/-- The helper moves bytes from the front of `tx_queue` to the back of `tx_fifo`, and none when it
fails. -/
structure MovesFront (d : Driver) (p : PortIndex) : Prop where
  moved : ∃ bytes,
    (d.ports p).txQueue.contents =
      bytes ++ ((transferNextTxFrame d p).2.ports p).txQueue.contents ∧
    ((transferNextTxFrame d p).2.ports p).txFifo.contents = (d.ports p).txFifo.contents ++ bytes
  error : (transferNextTxFrame d p).1.status ≠ .ok →
    ((transferNextTxFrame d p).2.ports p).txQueue.contents = (d.ports p).txQueue.contents ∧
    ((transferNextTxFrame d p).2.ports p).txFifo.contents = (d.ports p).txFifo.contents

variable {d : Driver} {p : PortIndex}

/-- The two rings together hold the same stream before and after. -/
theorem MovesFront.stream (h : MovesFront d p) :
    ((transferNextTxFrame d p).2.ports p).txFifo.contents ++
        ((transferNextTxFrame d p).2.ports p).txQueue.contents =
      (d.ports p).txFifo.contents ++ (d.ports p).txQueue.contents := by
  obtain ⟨bytes, hqueue, hfifo⟩ := h.moved
  rw [hfifo, hqueue, List.append_assoc]

/-- Without a counted frame or room for the longest one, the call is turned away. -/
theorem transferNextTxFrame_rejected (hd : d.Ready)
    (h : (d.ports p).txQueue.frameCount = 0 ∨
      (d.ports p).txFifo.canAcceptFrame fifoCapacity = false) :
    transferNextTxFrame d p = (.code .errorInvalidFrame, d) := by
  rw [transferNextTxFrame, onPort_eq hd.isInitialized]
  by_cases hnone : (d.ports p).txQueue.frameCount = 0
  · rw [if_pos hnone, Driver.set_self]
  · have hfull : ¬ (d.ports p).txFifo.canAcceptFrame fifoCapacity = true := by
      rw [h.resolve_left hnone]
      exact Bool.false_ne_true
    rw [if_neg hnone, if_pos hfull, Driver.set_self]

theorem transferNextTxFrame_port (hd : d.Ready) (hcount : (d.ports p).txQueue.frameCount ≠ 0)
    (haccept : (d.ports p).txFifo.canAcceptFrame fifoCapacity = true) :
    (transferNextTxFrame d p).1 =
        .code (Ring.transferFrame (d.ports p).txQueue (d.ports p).txFifo).1 ∧
      ((transferNextTxFrame d p).2.ports p).txQueue =
        (Ring.transferFrame (d.ports p).txQueue (d.ports p).txFifo).2.1 ∧
      ((transferNextTxFrame d p).2.ports p).txFifo =
        (Ring.transferFrame (d.ports p).txQueue (d.ports p).txFifo).2.2 := by
  rw [transferNextTxFrame, onPort_eq hd.isInitialized, if_neg hcount,
    if_neg (not_not_intro haccept)]
  simp [Driver.set]

theorem movesFront_of_rejected (hd : d.Ready)
    (h : (d.ports p).txQueue.frameCount = 0 ∨
      (d.ports p).txFifo.canAcceptFrame fifoCapacity = false) : MovesFront d p := by
  have hsame := transferNextTxFrame_rejected hd h
  refine ⟨⟨[], ?_, ?_⟩, fun _ => ?_⟩
  · rw [hsame]
    rfl
  · rw [hsame, List.append_nil]
  · rw [hsame]
    exact ⟨rfl, rfl⟩

/-- In front of encodings, a call that is not turned away moves the first frame of `tx_queue` and
drops what stands before it. -/
theorem movesFront_iff_head (hd : d.Ready) {packets : List (List UInt8)}
    (hout : Outstanding (d.ports p) packets) (hcount : (d.ports p).txQueue.frameCount ≠ 0)
    (haccept : (d.ports p).txFifo.canAcceptFrame fifoCapacity = true) :
    MovesFront d p ↔ (d.ports p).txQueue.contents.head? = some frameDelimiter := by
  obtain ⟨hreply, hqueue, hfifo⟩ := transferNextTxFrame_port hd hcount haccept
  rw [Ring.frameCount_eq] at hcount
  obtain ⟨body, rest, hframe⟩ := firstFrame_of_frameCount hcount
  obtain ⟨noise, hs, hnoise, hbody⟩ := id hframe
  have hencoded : ((d.ports p).txFifo.contents ++ noise) ++ (frameOf body ++ rest) =
      packets.flatMap encode := by
    rw [List.append_assoc, ← hs, hout.encoded]
  have hfits := length_body_le hout.valid hbody hencoded
  have hroom : body.length + 2 ≤ (d.ports p).txFifo.room := by
    rw [Ring.canAcceptFrame_eq, decide_eq_true_eq] at haccept
    rw [Ring.room]
    omega
  obtain ⟨hok, hrest, hmoved⟩ := hframe.transferFrame hfits hroom
  rw [← hqueue] at hrest
  rw [← hfifo] at hmoved
  rw [hok] at hreply
  constructor
  · -- A byte in front of the frame is gone from both rings.
    intro h
    have hlength := congrArg List.length h.stream
    rw [hrest, hmoved, hs] at hlength
    simp only [List.length_append] at hlength
    obtain rfl : noise = [] := List.eq_nil_of_length_eq_zero (by omega)
    rw [hs]
    rfl
  · intro hhead
    have hclean : noise = [] := by
      cases noise with
      | nil => rfl
      | cons x noise =>
        rw [hs] at hhead
        obtain rfl : x = frameDelimiter := Option.some.inj hhead
        exact absurd (List.mem_cons_self ..) hnoise
    refine ⟨⟨frameOf body, ?_, hmoved⟩, fun herror => absurd (by rw [hreply]; rfl) herror⟩
    rw [hrest, hs, hclean, List.nil_append]

/-- **After writes and polls, the helper agrees with polling exactly when it turns the call away or
`tx_queue` begins with a delimiter.** -/
theorem transferNextTxFrame_moves_iff {start : Driver} {es : List Event}
    (hstart : FreshlyReset start) (hrun : Run Call.IsWriteOrPoll start es d) (p : PortIndex) :
    MovesFront d p ↔
      (d.ports p).txQueue.frameCount = 0 ∨
      (d.ports p).txFifo.canAcceptFrame fifoCapacity = false ∨
      (d.ports p).txQueue.contents.head? = some frameDelimiter := by
  have hready := hrun.ready hstart.ready
  rw [← or_assoc]
  by_cases hreject : (d.ports p).txQueue.frameCount = 0 ∨
      (d.ports p).txFifo.canAcceptFrame fifoCapacity = false
  · exact iff_of_true (movesFront_of_rejected hready hreject) (.inl hreject)
  · obtain ⟨hcount, haccept⟩ := not_or.1 hreject
    rw [or_iff_right hreject]
    exact movesFront_iff_head hready (outstanding_accepted hstart hrun p) hcount (Bool.not_eq_false _ ▸ haccept)

/-- A poll that leaves `tx_queue` at the closing delimiter of its first packet. The helper takes
it for the opening of an empty frame, and moves two delimiters. -/
theorem transferNextTxFrame_moves_closing : ∃ es d,
    Run Call.IsWriteOrPoll (resetState .zero) es d ∧
      (d.ports 0).txQueue.contents = [0x7E, 0x7E, 0x05, 0x7E] ∧ MovesFront d 0 := by
  have hnil : Run Call.IsWriteOrPoll (resetState .zero) [] _ := .nil
  have hrun := ((hnil.snoc default
    (.write 0 (.bytes (List.replicate 255 0x01)) .valid) trivial).snoc default
    (.write 0 (.bytes [0x05]) .valid) trivial).snoc default (.pollPort 0) trivial
  refine ⟨_, _, hrun, by decide +kernel, ?_⟩
  refine (transferNextTxFrame_moves_iff ⟨.zero, .inl rfl⟩ hrun 0).2 (.inr (.inr ?_))
  decide +kernel

/-- A poll that leaves one payload byte of its packet in front of the closing delimiter. The
helper reports success, and that byte is in neither ring. -/
theorem transferNextTxFrame_dropsByte : ∃ es d,
    Run Call.IsWriteOrPoll (resetState .zero) es d ∧
      (d.ports 0).txQueue.contents = [0x01, 0x7E, 0x7E, 0x01, 0x7E] ∧
      (transferNextTxFrame d 0).1.status = .ok ∧
      ((transferNextTxFrame d 0).2.ports 0).txQueue.contents = [0x01, 0x7E] ∧
      ((transferNextTxFrame d 0).2.ports 0).txFifo.contents =
        (d.ports 0).txFifo.contents ++ [0x7E, 0x7E] ∧
      ¬ MovesFront d 0 := by
  have hnil : Run Call.IsWriteOrPoll (resetState .zero) [] _ := .nil
  have hrun := ((hnil.snoc default
    (.write 0 (.bytes (List.replicate 256 0x01)) .valid) trivial).snoc default
    (.write 0 (.bytes [0x01]) .valid) trivial).snoc default (.pollPort 0) trivial
  obtain ⟨es, d, hrun, hqueue, haccepted⟩ : ∃ es d,
      Run Call.IsWriteOrPoll (resetState .zero) es d ∧
        (d.ports 0).txQueue.contents = [0x01, 0x7E, 0x7E, 0x01, 0x7E] ∧
        accepted Call.written 0 es = [List.replicate 256 0x01, [0x01]] :=
    ⟨_, _, hrun, by decide +kernel, by decide +kernel⟩
  have hready := hrun.ready (ready_resetState _)
  have hcapacity := (hready.sized 0).txFifo
  have hfifo : (d.ports 0).txFifo.contents = 0x7E :: List.replicate 255 0x01 := by
    have hout := (outstanding_accepted ⟨.zero, .inl rfl⟩ hrun 0).encoded
    rw [haccepted, hqueue] at hout
    exact List.append_cancel_right (hout.trans (by decide +kernel))
  have haccept : (d.ports 0).txFifo.canAcceptFrame fifoCapacity = true := by
    rw [Ring.canAcceptFrame_eq, hfifo, hcapacity]
    decide +kernel
  have hcount : (d.ports 0).txQueue.frameCount ≠ 0 := by
    rw [Ring.frameCount_eq, hqueue]
    decide
  have hroom : 2 ≤ (d.ports 0).txFifo.room := by
    rw [Ring.room, hfifo, hcapacity]
    decide +kernel
  have hframe : FirstFrame (d.ports 0).txQueue.contents [] [0x01, 0x7E] :=
    ⟨[0x01], by rw [hqueue]; rfl, by decide, by decide⟩
  obtain ⟨hreply, hqueue', hfifo'⟩ :=
    transferNextTxFrame_port hready hcount haccept
  obtain ⟨hok, hrest, hmoved⟩ := hframe.transferFrame (by decide) hroom
  rw [← hqueue'] at hrest
  rw [← hfifo'] at hmoved
  rw [hok] at hreply
  refine ⟨es, d, hrun, hqueue, congrArg Reply.status hreply, hrest, hmoved, ?_⟩
  intro h
  have hlength := congrArg List.length h.stream
  rw [hrest, hmoved, hqueue] at hlength
  simp [frameOf] at hlength

end Xr17v358
