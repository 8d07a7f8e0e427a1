import SerialDriver.Lib.Blocks
import SerialDriver.Stream
import SerialDriver.Invariant

/-!
# Queue reads into a small buffer

`queueRead` takes a frame off `tx_fifo` and only then compares the decoded packet with the space
left in the buffer. A packet that does not fit is lost, and with it the packets that the same call
decoded before, since the error skips the count. So the call costs no packet exactly when it never
meets such a packet (`queueRead_costsNothing_iff`).
-/

namespace Xr17v358

open Blocks

variable {ds : List (List UInt8)} {part : List UInt8}

/-- A front of an encoding that is not all of it; it may be empty. -/
def PartialEncoding (part : List UInt8) : Prop :=
  ∃ d, ValidPayload d ∧ part <+: encode d ∧ part ≠ encode d

theorem PartialEncoding.count_lt (h : PartialEncoding part) : part.count frameDelimiter < 2 := by
  obtain ⟨d, hd, hpre, hne⟩ := h
  rw [encode_eq hd, ← List.cons_append] at hpre hne
  have hfront := (List.prefix_concat_iff.1 hpre).resolve_left hne
  have hcount : (frameDelimiter :: serialCode.stuff d).count frameDelimiter = 1 := by
    rw [List.count_cons_self, List.count_eq_zero.2 (delimiter_not_mem_stuff d)]
  have hle := hfront.sublist.count_le frameDelimiter
  omega

/-! ## The loop -/

/-- Without room or a complete frame the loop ends. -/
theorem queueReadLoop_stop (portIndex : Nat) {length : Nat} (n : Nat) {txFifo : Ring}
    {out : List UInt8}
    (h : length ≤ out.length ∨ txFifo.contents.count frameDelimiter < 2) :
    queueReadLoop portIndex length n txFifo out = (.returned out, txFifo) := by
  cases n with
  | zero => rfl
  | succ n =>
    rw [queueReadLoop]
    split_ifs with hmore hcomplete
    · rw [Ring.hasCompleteFrame_eq, decide_eq_true_eq] at hcomplete
      omega
    · rfl
    · rfl

/-- With room and a packet in front, a turn takes the packet off `tx_fifo` and then looks at its
length. -/
theorem queueReadLoop_turn (portIndex n : Nat) {length : Nat} {txFifo : Ring}
    {d rest out : List UInt8} (hd : ValidPayload d) (hfifo : txFifo.contents = encode d ++ rest)
    (hmore : out.length < length) :
    ∃ txFifo' : Ring, txFifo'.contents = rest ∧
      queueReadLoop portIndex length (n + 1) txFifo out =
        if length - out.length < d.length then
          ({ status := .errorInvalidArgument, data := out }, txFifo')
        else queueReadLoop portIndex length n txFifo' (out ++ d) := by
  have hstep : receiver.step txFifo.contents = some (some d, rest) := by
    rw [hfifo]
    exact @extract_encode [] d (by simp) hd rest
  have hcount : 2 ≤ txFifo.contents.count frameDelimiter := by
    by_contra hcount
    rw [step_eq_none_iff.2 (by omega)] at hstep
    exact absurd hstep (by simp)
  have hcomplete : ¬ ¬ txFifo.hasCompleteFrame = true := not_not_intro (by simpa using hcount)
  have hsize : 0 < txFifo.size := by
    have hle := txFifo.contents.count_le_length (a := frameDelimiter)
    rw [Ring.size_eq]
    omega
  rcases txFifo.readFrame_step portIndex hcount with ⟨hnone, -⟩ | ⟨d', hstep', hread, hdecode⟩
  · rw [hstep] at hnone
    exact absurd hnone (by simp)
  · rw [hstep] at hstep'
    obtain ⟨hd', hrest⟩ := Prod.mk.inj (Option.some.inj hstep')
    obtain rfl := Option.some.inj hd'
    refine ⟨txFifo.readFrame.2, hrest.symm, ?_⟩
    rw [queueReadLoop, if_pos ⟨hmore, hsize⟩, if_neg hcomplete]
    simp only [hread, hdecode, ne_eq, not_true_eq_false, if_false]

/-- **The loop returns whole packets, or fails at one that does not fit.** What it has taken off
`tx_fifo` by then is gone. -/
theorem queueReadLoop_packets (portIndex length : Nat) {n : Nat} {txFifo : Ring}
    {out : List UInt8} (hds : ∀ x ∈ ds, ValidPayload x) (hpart : part.count frameDelimiter < 2)
    (hfifo : txFifo.contents = ds.flatMap encode ++ part) (hn : txFifo.contents.length ≤ n)
    (hout : out.length ≤ length) :
    let run := queueReadLoop portIndex length n txFifo out
    (∃ taken left, Whole ds taken left (length - out.length) ∧
        run.1 = .returned (out ++ taken.flatten) ∧
        run.2.contents = left.flatMap encode ++ part) ∨
      ∃ taken d left, Torn ds taken d left (length - out.length) ∧
        run.1.status = .errorInvalidArgument ∧ run.2.contents = left.flatMap encode ++ part := by
  intro run
  induction ds generalizing n txFifo out with
  | nil =>
    have hstop : run = (.returned out, txFifo) :=
      queueReadLoop_stop portIndex n (.inr (by rw [hfifo]; exact hpart))
    rw [hstop]
    exact .inl ⟨[], [], .idle (.inl rfl), by simp, hfifo⟩
  | cons d ds ih =>
    have hd := hds d (List.mem_cons_self ..)
    by_cases hfull : length ≤ out.length
    · have hstop : run = (.returned out, txFifo) := queueReadLoop_stop portIndex n (.inl hfull)
      rw [hstop]
      exact .inl ⟨[], d :: ds, .idle (.inr (by omega)), by simp, hfifo⟩
    · have hlength := congrArg List.length hfifo
      have hpos := lt_length_encode hd
      rw [List.flatMap_cons, List.append_assoc] at hfifo
      rw [List.flatMap_cons, List.append_assoc, List.length_append] at hlength
      obtain ⟨n, rfl⟩ : ∃ n', n = n' + 1 := ⟨n - 1, by omega⟩
      obtain ⟨txFifo', hrest, hturn⟩ := queueReadLoop_turn portIndex n hd hfifo (not_le.1 hfull)
      by_cases hshort : length - out.length < d.length
      · have hrun : run = ({ status := .errorInvalidArgument, data := out }, txFifo') :=
          hturn.trans (if_pos hshort)
        rw [hrun]
        refine .inr ⟨[], d, ds, ⟨rfl, ?_, ?_⟩, rfl, hrest⟩
        · rw [List.flatten_nil, List.length_nil]
          omega
        · rw [List.flatten_nil, List.length_nil]
          omega
      · have hrun : run = queueReadLoop portIndex length n txFifo' (out ++ d) :=
          hturn.trans (if_neg hshort)
        have hout' : (out ++ d).length ≤ length := by
          rw [List.length_append]
          omega
        have hleft : length - (out ++ d).length = length - out.length - d.length := by
          rw [List.length_append]
          omega
        have hn' : txFifo'.contents.length ≤ n := by
          rw [hrest]
          omega
        have hlater := ih (fun x hx => hds x (List.mem_cons_of_mem _ hx)) hrest hn' hout'
        rw [hleft] at hlater
        rw [hrun]
        rcases hlater with ⟨taken, left, hwhole, hreply, hfifo'⟩ |
          ⟨taken, d', left, htorn, hstatus, hfifo'⟩
        · refine .inl ⟨d :: taken, left, hwhole.cons (by omega), ?_, hfifo'⟩
          rw [hreply, List.flatten_cons, List.append_assoc]
        · exact .inr ⟨d :: taken, d', left, htorn.cons (by omega), hstatus, hfifo'⟩

/-! ## The call -/

/-- What an `INVALID_ARGUMENT` should cost: `tx_fifo` keeps its contents, and a retry with room for
all packets returns them. -/
def CostsNothing (d : Driver) (p : PortIndex) (data : OutBuffer) (ptr : Ptr)
    (ds : List (List UInt8)) : Prop :=
  let after := (queueRead d p data ptr).2
  (queueRead d p data ptr).1.status = .errorInvalidArgument →
    (after.ports p).txFifo.contents = ((ensureStateInitialized d).ports p).txFifo.contents ∧
    ∀ length, ds.flatten.length ≤ length →
      (queueRead after p ⟨.valid, length⟩ .valid).1 = .returned ds.flatten

/-- A call with a pointer missing keeps the port. -/
theorem queueRead_null (d : Driver) (p : PortIndex) {data : OutBuffer} {ptr : Ptr}
    (hargs : ptr = .null ∨ data.missing) :
    (queueRead d p data ptr).2.ports p = (ensureStateInitialized d).ports p := by
  rw [queueRead, onPort_ports, if_pos rfl, if_pos hargs]

section Packets

variable (hds : ∀ x ∈ ds, ValidPayload x) (hpart : PartialEncoding part) (d : Driver)
  (p : PortIndex)
  (hfifo : ((ensureStateInitialized d).ports p).txFifo.contents = ds.flatMap encode ++ part)

include hds hpart hfifo

theorem queueRead_packets {data : OutBuffer} {ptr : Ptr} (hargs : ¬ (ptr = .null ∨ data.missing)) :
    (∃ taken left, Whole ds taken left data.length ∧
        (queueRead d p data ptr).1 = .returned taken.flatten ∧
        ((queueRead d p data ptr).2.ports p).txFifo.contents = left.flatMap encode ++ part) ∨
      ∃ taken d' left, Torn ds taken d' left data.length ∧
        (queueRead d p data ptr).1.status = .errorInvalidArgument ∧
        ((queueRead d p data ptr).2.ports p).txFifo.contents = left.flatMap encode ++ part := by
  have hempty : ([] : List UInt8).length ≤ data.length := Nat.zero_le _
  have hrun := queueReadLoop_packets p data.length hds hpart.count_lt hfifo le_rfl hempty
  rw [queueRead, onPort_out, onPort_ports, if_pos rfl, if_neg hargs, Ring.size_eq]
  exact hrun

/-- A buffer with room for all packets gets them. -/
theorem queueRead_all {length : Nat} (hlength : ds.flatten.length ≤ length) :
    (queueRead d p ⟨.valid, length⟩ .valid).1 = .returned ds.flatten := by
  have hargs : ¬ (Ptr.valid = .null ∨ OutBuffer.missing ⟨.valid, length⟩) := by
    simp [OutBuffer.missing]
  rcases queueRead_packets hds hpart d p hfifo hargs with
    ⟨taken, left, ⟨hsplit, hfits, hstop⟩, hreply, -⟩ | ⟨taken, d', left, htorn, -⟩
  · have hnone : left.flatten = [] := by
      rcases hstop with rfl | hfull
      · rfl
      · dsimp only at hfull
        rw [hsplit, length_flatten_append, hfull] at hlength
        exact List.eq_nil_of_length_eq_zero (by omega)
    rw [hreply, hsplit, List.flatten_append, hnone, List.append_nil]
  · exact absurd (.inl hlength) htorn.not_cutsWhole

/-- **A queue read costs no packet exactly when it cuts none**: it is turned away for a pointer, or
the packets in `tx_fifo` fit the buffer, or the first few of them fill it. -/
theorem queueRead_costsNothing_iff (data : OutBuffer) (ptr : Ptr) :
    CostsNothing d p data ptr ds ↔ (ptr = .null ∨ data.missing) ∨ CutsWhole ds data.length := by
  by_cases hargs : ptr = .null ∨ data.missing
  · refine iff_of_true (fun _ => ?_) (.inl hargs)
    have hafter := queueRead_null d p hargs
    have hinit : ensureStateInitialized (queueRead d p data ptr).2 = (queueRead d p data ptr).2 :=
      if_pos onPort_isInitialized
    refine ⟨by rw [hafter], fun length hlength => ?_⟩
    exact queueRead_all hds hpart _ p (by rw [hinit, hafter]; exact hfifo) hlength
  · rw [or_iff_right hargs]
    rcases queueRead_packets hds hpart d p hfifo hargs with ⟨taken, left, hwhole, hreply, -⟩ |
      ⟨taken, d', left, htorn, herror, hleft⟩
    · refine iff_of_true (fun herror => ?_) hwhole.cutsWhole
      rw [hreply] at herror
      exact absurd herror (by simp [Reply.returned])
    · refine iff_of_false (fun h => ?_) htorn.not_cutsWhole
      obtain ⟨hkept, -⟩ := h herror
      have hpos := lt_length_encode (hds d' (by rw [htorn.split]; simp))
      have hlength := congrArg List.length hkept
      rw [hleft, hfifo, htorn.split] at hlength
      simp only [List.flatMap_append, List.flatMap_cons, List.length_append] at hlength
      omega

end Packets

theorem queueRead_costsNothing_firstPacket :
    let d := (injectTxFrameBytes .zero 0 (.bytes [0x7E, 1, 0x7E, 0x7E, 2, 3, 0x7E, 0x7E, 4])
      .valid).2
    CostsNothing d 0 ⟨.valid, 1⟩ .valid [[1], [2, 3]] := by
  intro d
  have hpart : PartialEncoding [0x7E, 4] := ⟨[4], by decide, by decide, by decide⟩
  have hfifo : ((ensureStateInitialized d).ports 0).txFifo.contents =
      [[1], [2, 3]].flatMap encode ++ [0x7E, 4] := by decide +kernel
  refine (queueRead_costsNothing_iff (by decide) hpart d 0 hfifo ⟨.valid, 1⟩ .valid).2 ?_
  exact .inr (.inr ⟨[[1]], [[2, 3]], rfl, rfl⟩)

/-- A packet of two bytes and a buffer of one: the call fails, and the packet is gone. -/
theorem queueRead_costsPacket : ∃ d, Reachable d ∧
    (d.ports 0).txFifo.contents = [[0x11, 0x22]].flatMap encode ∧
    (queueRead d 0 ⟨.valid, 1⟩ .valid).1.status = .errorInvalidArgument ∧
    ((queueRead d 0 ⟨.valid, 1⟩ .valid).2.ports 0).txFifo.contents = [] ∧
    ¬ CostsNothing d 0 ⟨.valid, 1⟩ .valid [[0x11, 0x22]] := by
  have hnil : Run (fun _ => True) .zero [] _ := .nil
  have hrun := hnil.snoc default
    (.injectTxFrameBytes 0 (.bytes [0x7E, 0x11, 0x22, 0x7E]) .valid) trivial
  obtain ⟨d, hreach, hinit, hfifo, herror, hempty⟩ : ∃ d, Reachable d ∧ d.isInitialized = true ∧
      (d.ports 0).txFifo.contents = [[0x11, 0x22]].flatMap encode ∧
      (queueRead d 0 ⟨.valid, 1⟩ .valid).1.status = .errorInvalidArgument ∧
      ((queueRead d 0 ⟨.valid, 1⟩ .valid).2.ports 0).txFifo.contents = [] :=
    ⟨_, ⟨_, hrun⟩, rfl, by decide +kernel, by decide +kernel, by decide +kernel⟩
  refine ⟨d, hreach, hfifo, herror, hempty, fun h => ?_⟩
  have hensure : ensureStateInitialized d = d := if_pos hinit
  have hkept : ((queueRead d 0 ⟨.valid, 1⟩ .valid).2.ports 0).txFifo.contents =
      ((ensureStateInitialized d).ports 0).txFifo.contents := (h herror).1
  rw [hempty, hensure, hfifo] at hkept
  exact absurd hkept (by decide)

end Xr17v358
