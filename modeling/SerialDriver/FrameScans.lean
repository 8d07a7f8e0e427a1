import SerialDriver.BulkTransfer
import SerialDriver.Lib.Blocks

/-!
# What the two scans find

`ringFrameCount` on a window of a stream of encodings, cut anywhere at both ends, counts the
encodings that lie whole in the window (`ringFrameCount_window`). `ringHasCompleteFrame` is the
precondition of `ringReadFrame`: what it finds is the frame that `ringReadFrame` takes, or gives up
on when the frame does not fit (`ringReadFrame_iff_complete`).
-/

namespace Xr17v358

open Delimited

/-! ## Counting in a window of encodings -/

theorem encode_eq_frameOf {d : List UInt8} (h : ValidPayload d) :
    encode d = frameOf (serialCode.stuff d) := encode_eq h

/-- A whole encoding is counted, and the next starts in a frame. -/
theorem frameCountFrom_encode {d : List UInt8} (h : ValidPayload d) (s : List UInt8)
    (inFrame : Bool) :
    frameCountFrom (encode d ++ s) 0 inFrame = 1 + frameCountFrom s 0 true := by
  rw [encode_eq_frameOf h, frameCountFrom_frameOf (delimiter_not_mem_stuff d),
    if_neg (serialCode.stuff_ne_nil (List.ne_nil_of_length_pos h.1))]

/-- The front of an encoding is not. -/
theorem frameCountFrom_torn {d : List UInt8} (h : ValidPayload d) {k : Nat}
    (hk : k < (encode d).length) (inFrame : Bool) :
    frameCountFrom ((encode d).take k) 0 inFrame = 0 := by
  rw [encode_eq h] at hk ⊢
  cases k with
  | zero => rfl
  | succ k =>
    simp only [List.length_cons, List.length_append, List.length_nil] at hk
    have hbody : frameDelimiter ∉ (serialCode.stuff d).take k :=
      fun hmem => delimiter_not_mem_stuff d (List.mem_of_mem_take hmem)
    have hopen := frameCountFrom_body hbody [] 0
    rw [List.append_nil] at hopen
    rw [List.take_succ_cons, List.take_append_of_le_length (by omega), frameCountFrom, if_pos rfl,
      if_neg (by simp), hopen]
    rfl

variable {ds : List (List UInt8)}

/-- The front of a stream of encodings: those that fit are counted. -/
theorem frameCountFrom_front (hds : ∀ d ∈ ds, ValidPayload d) (k : Nat) (inFrame : Bool) :
    frameCountFrom ((ds.flatMap encode).take k) 0 inFrame =
      Blocks.within (ds.map encode) 0 k := by
  induction ds generalizing k inFrame with
  | nil => simp [frameCountFrom]
  | cons d ds ih =>
    have hd := hds d (List.mem_cons_self ..)
    rw [List.flatMap_cons, List.map_cons, List.take_append]
    by_cases hk : (encode d).length ≤ k
    · rw [List.take_of_length_le hk, frameCountFrom_encode hd, Blocks.within_cons hk, if_pos rfl,
        ih fun d' h => hds d' (List.mem_cons_of_mem _ h), Nat.zero_sub]
    · rw [Nat.sub_eq_zero_of_le (by omega), List.take_zero, List.append_nil,
        frameCountFrom_torn hd (by omega), Blocks.within_cons_of_lt (by omega)]

/-- The end of a frame is noise and the delimiter that closes it. -/
theorem exists_tail {d : List UInt8} (hd : ValidPayload d) {lo : Nat} (hpos : 0 < lo)
    (hlo : lo < (encode d).length) :
    ∃ noise, (encode d).drop lo = noise ++ [frameDelimiter] ∧ frameDelimiter ∉ noise ∧
      lo + noise.length + 1 = (encode d).length := by
  obtain ⟨k, rfl⟩ : ∃ k, lo = k + 1 := ⟨lo - 1, by omega⟩
  rw [encode_eq hd] at hlo ⊢
  simp only [List.length_cons, List.length_append, List.length_nil] at hlo ⊢
  refine ⟨(serialCode.stuff d).drop k, ?_, ?_, ?_⟩
  · rw [List.drop_succ_cons, List.drop_append_of_le_length (by omega)]
  · exact fun hmem => delimiter_not_mem_stuff d (List.mem_of_mem_drop hmem)
  · rw [List.length_drop]
    omega

/-- Behind the end of a frame, its delimiter opens nothing: the next one opens the next frame. -/
theorem frameCount_behind (hds : ∀ d ∈ ds, ValidPayload d) {noise : List UInt8}
    (hnoise : frameDelimiter ∉ noise) (len : Nat) :
    frameCount ((noise ++ frameDelimiter :: ds.flatMap encode).take len) =
      if len ≤ noise.length then 0
      else Blocks.within (ds.map encode) 0 (len - (noise.length + 1)) := by
  rw [List.take_append]
  split_ifs with hshort
  · have hcut : frameDelimiter ∉ noise.take len := fun hmem => hnoise (List.mem_of_mem_take hmem)
    rw [Nat.sub_eq_zero_of_le hshort, List.take_zero, frameCount_noise hcut]
    rfl
  · obtain ⟨n, hn⟩ : ∃ n, len = noise.length + 1 + n := ⟨len - (noise.length + 1), by omega⟩
    subst hn
    rw [List.take_of_length_le (by omega), frameCount_noise hnoise,
      show noise.length + 1 + n - noise.length = n + 1 by omega, List.take_succ_cons, frameCount,
      frameCountFrom, if_pos rfl, if_neg (by simp), Nat.zero_add, frameCountFrom_front hds,
      Nat.add_sub_cancel_left]

/-- **A window of a stream of encodings**: those that lie whole in it are counted. -/
theorem frameCount_window (hds : ∀ d ∈ ds, ValidPayload d) (lo len : Nat) :
    frameCount (((ds.flatMap encode).drop lo).take len) =
      Blocks.within (ds.map encode) lo (lo + len) := by
  induction ds generalizing lo len with
  | nil => simp [frameCount, frameCountFrom]
  | cons d ds ih =>
    have hd := hds d (List.mem_cons_self ..)
    have hds' : ∀ d' ∈ ds, ValidPayload d' := fun d' h => hds d' (List.mem_cons_of_mem _ h)
    rcases Nat.eq_zero_or_pos lo with rfl | hlo
    · rw [List.drop_zero, Nat.zero_add]
      exact frameCountFrom_front hds len false
    rw [List.flatMap_cons, List.map_cons, List.drop_append]
    by_cases hbehind : (encode d).length ≤ lo
    · rw [List.drop_eq_nil_of_le hbehind, List.nil_append, ih hds',
        Blocks.within_cons (by omega), if_neg (by omega), Nat.zero_add]
      congr 1
      omega
    · -- The window starts inside this encoding, and sees at most the delimiter that closes it.
      obtain ⟨noise, htail, hnoise, hlength⟩ := exists_tail hd hlo (by omega)
      rw [htail, Nat.sub_eq_zero_of_le (by omega), List.drop_zero, List.append_assoc,
        List.singleton_append, frameCount_behind hds' hnoise]
      split_ifs with hshort
      · rw [Blocks.within_cons_of_lt (by omega)]
      · rw [Blocks.within_cons (by omega), if_neg (by omega), Nat.zero_add]
        congr 1 <;> omega

/-- **The frame counter is exact on every window of a stream of encodings**, wherever it is cut
and wherever it lies in the ring. -/
theorem ringFrameCount_window (hds : ∀ d ∈ ds, ValidPayload d) {front w back : List UInt8}
    (hstream : ds.flatMap encode = front ++ w ++ back) {rb : RingBuffer} (h : rb.WF)
    (hcontents : rb.contents = w) :
    ringFrameCount rb =
      some (Blocks.within (ds.map encode) front.length (front.length + w.length)) := by
  have hwindow : ((ds.flatMap encode).drop front.length).take w.length = w := by
    rw [hstream, List.append_assoc, List.drop_left, List.take_left]
  rw [ringFrameCount_spec h, hcontents, ← frameCount_window hds, hwindow]

/-- A window from the delimiter that closes one frame to the one that opens the third, in a ring that
wraps around the end of its storage. -/
theorem ringFrameCount_window_wrapped :
    let rb : RingBuffer :=
      ⟨fun i => [0x7D, 0x5E, 0x7E, 0x7E, 0, 0, 0x7E, 0x7E].getD i 0, 6, 4, 6, 8⟩
    ringFrameCount rb = some (Blocks.within ([[1], [0x7E], [2]].map encode) 2 8) ∧
      Blocks.within ([[1], [0x7E], [2]].map encode) 2 8 = 1 := by
  intro rb
  have hwf : rb.WF := ⟨by decide, by decide, by decide, by decide, by decide⟩
  refine ⟨?_, by decide +kernel⟩
  exact @ringFrameCount_window [[1], [0x7E], [2]] (by decide) [0x7E, 1]
    [0x7E, 0x7E, 0x7D, 0x5E, 0x7E, 0x7E] [2, 0x7E] (by decide +kernel) rb hwf (by decide +kernel)

/-! ## The completeness test and the extractor -/

/-- The stream is `n`, the frame around `b`, and `r`, the delimiters of the frame being the first
two. -/
def SplitsInto (s n b r : List UInt8) : Prop :=
  s = n ++ frameDelimiter :: (b ++ frameDelimiter :: r) ∧ frameDelimiter ∉ n ∧ frameDelimiter ∉ b

theorem two_le_count_iff {s : List UInt8} :
    2 ≤ s.count frameDelimiter ↔ ∃ n b r, SplitsInto s n b r := by
  constructor
  · exact exists_frame
  · rintro ⟨n, b, r, rfl, hn, hb⟩
    exact two_le_count hn hb r

variable {rb : RingBuffer} {frameCapacity : Nat} {n b r : List UInt8}

/-- A frame that fits is taken, with the noise in front of it. -/
theorem ringReadFrame_fits (h : rb.WF) (hs : SplitsInto rb.contents n b r)
    (hfit : b.length + 2 ≤ frameCapacity) :
    ∃ rb', ringReadFrame rb .valid frameCapacity .valid =
        some (⟨.ok, frameDelimiter :: (b ++ [frameDelimiter]), some (b.length + 2)⟩, rb') ∧
      rb'.WF ∧ rb'.contents = r := by
  obtain ⟨hcontents, hn, hb⟩ := hs
  obtain ⟨rb', hrun, hwf, -, hrest⟩ := ringReadFrame_spec h (show 0 < frameCapacity by omega)
  rw [hcontents, readFrame_fits hn hb hfit] at hrun hrest
  exact ⟨rb', hrun, hwf, hrest⟩

/-- One that does not fit costs the noise, the bytes that fill the buffer, and one more, which may be
the delimiter that closes the frame. -/
theorem ringReadFrame_overflow (h : rb.WF) (hs : SplitsInto rb.contents n b r)
    (hpos : 0 < frameCapacity) (hlong : frameCapacity < b.length + 2) :
    ∃ reply rb' lost, ringReadFrame rb .valid frameCapacity .valid = some (reply, rb') ∧
      reply.status = .errorInvalidFrame ∧ rb'.WF ∧ rb.contents = n ++ lost ++ rb'.contents ∧
      lost.length = frameCapacity + 1 := by
  obtain ⟨hcontents, hn, hb⟩ := hs
  obtain ⟨rb', hrun, hwf, -, hrest⟩ := ringReadFrame_spec h hpos
  rw [hcontents, readFrame_overflow hn hb hpos hlong] at hrun hrest
  refine ⟨_, rb', frameDelimiter :: (b ++ frameDelimiter :: r).take frameCapacity, hrun, rfl, hwf,
    ?_, ?_⟩
  · rw [hrest, List.append_assoc, List.cons_append, List.take_append_drop, hcontents]
  · rw [List.length_cons, List.length_take, List.length_append, List.length_cons]
    omega

/-- **The completeness test is exactly the extractor's precondition.** It finds the first two
delimiters; the extractor takes the frame between them or, when it does not fit, gives up one byte
past the buffer. Without two delimiters there is no frame to take. -/
theorem ringReadFrame_iff_complete (h : rb.WF) (hcapacity : 2 ≤ frameCapacity) :
    ∃ complete, ringHasCompleteFrame rb = some complete ∧
      (complete = true ↔ ∃ n b r, SplitsInto rb.contents n b r) ∧
      (∀ n b r, SplitsInto rb.contents n b r →
        if b.length + 2 ≤ frameCapacity then
          ∃ rb', ringReadFrame rb .valid frameCapacity .valid =
              some (⟨.ok, frameDelimiter :: (b ++ [frameDelimiter]), some (b.length + 2)⟩, rb') ∧
            rb'.WF ∧ rb'.contents = r
        else
          ∃ reply rb' lost, ringReadFrame rb .valid frameCapacity .valid = some (reply, rb') ∧
            reply.status = .errorInvalidFrame ∧ rb'.WF ∧
            rb.contents = n ++ lost ++ rb'.contents ∧ lost.length = frameCapacity + 1) ∧
      (complete = false → ∃ reply rb',
        ringReadFrame rb .valid frameCapacity .valid = some (reply, rb') ∧
          reply.status = .errorInvalidFrame) := by
  refine ⟨_, ringHasCompleteFrame_spec h, ?_, ?_, ?_⟩
  · rw [decide_eq_true_iff]
    exact two_le_count_iff
  · intro n b r hs
    split_ifs with hfit
    · exact ringReadFrame_fits h hs hfit
    · exact ringReadFrame_overflow h hs (by omega) (by omega)
  · intro hincomplete
    obtain ⟨rb', hrun, -⟩ := ringReadFrame_spec h (show 0 < frameCapacity by omega)
    refine ⟨_, rb', hrun, readFrame_incomplete ?_ frameCapacity⟩
    simpa using hincomplete

/-- The delimiter that closes the frame is the byte that no longer fits. -/
theorem ringReadFrame_iff_complete_tight :
    ∃ reply rb' lost, ringReadFrame (ringHolding 8 [5, 0x7E, 1, 0x7E, 9] (by decide)).1 .valid 2
        .valid = some (reply, rb') ∧ reply.status = .errorInvalidFrame ∧
      [5, 0x7E, 1, 0x7E, 9] = [5] ++ lost ++ rb'.contents ∧ lost.length = 3 := by
  have hcontents : (ringHolding 8 [5, 0x7E, 1, 0x7E, 9] (by decide)).1.contents =
      [5, 0x7E, 1, 0x7E, 9] := by decide +kernel
  obtain ⟨-, -, -, hread, -⟩ :=
    ringReadFrame_iff_complete (ringHolding 8 [5, 0x7E, 1, 0x7E, 9] (by decide)).2 le_rfl
  obtain ⟨reply, rb', lost, hrun, hstatus, -, hlost, hlength⟩ :=
    hread [5] [1] [9] ⟨hcontents, by decide, by decide⟩
  rw [hcontents] at hlost
  exact ⟨reply, rb', lost, hrun, hstatus, hlost, hlength⟩

end Xr17v358
