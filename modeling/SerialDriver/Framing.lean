import SerialDriver.RingBuffer
import SerialDriver.CodecProof
import SerialDriver.Lib.Delimited
import SerialDriver.Lib.Incremental

/-!
# Frames in a byte stream

The frame operations of the ring buffer, read as functions of the bytes buffered.

* `frameCount` counts the non-empty runs of bytes between neighbouring delimiters.
* `readFrame` extracts the first frame. On `n ++ 0x7E :: (b ++ 0x7E :: r)`, with no delimiter in
  `n` and `b`, it takes the frame around `b` and leaves `r` when the frame fits the buffer
  (`readFrame_fits`), and otherwise gives up one byte past the buffer (`readFrame_overflow`).
* `receiver` is the receive path as an incremental consumer: a frame becomes its payload, or
  `none` when it is malformed or too long.
-/

namespace Xr17v358

open Delimited

/-! ## Counting frames -/

/-- The frames ended in a stream, `payloadBytes` bytes after the last delimiter when `inFrame`. -/
def frameCountFrom : List UInt8 → (payloadBytes : Nat) → (inFrame : Bool) → Nat
  | [], _, _ => 0
  | value :: s, payloadBytes, inFrame =>
    if value = frameDelimiter then
      (if inFrame ∧ 0 < payloadBytes then 1 else 0) + frameCountFrom s 0 true
    else frameCountFrom s (if inFrame then payloadBytes + 1 else payloadBytes) inFrame

def frameCount (s : List UInt8) : Nat := frameCountFrom s 0 false

theorem frameCountFrom_body {b : List UInt8} (hb : frameDelimiter ∉ b) (s : List UInt8) (k : Nat) :
    frameCountFrom (b ++ s) k true = frameCountFrom s (k + b.length) true := by
  induction b generalizing k with
  | nil => rfl
  | cons x b ih =>
    have hx : x ≠ frameDelimiter := fun h => hb (by simp [h])
    rw [List.cons_append, frameCountFrom, if_neg hx, if_pos rfl, ih fun h => hb (by simp [h]),
      List.length_cons, Nat.add_assoc, Nat.add_comm 1]

theorem frameCountFrom_close {b : List UInt8} (hb : frameDelimiter ∉ b) (r : List UInt8) (k : Nat) :
    frameCountFrom (b ++ frameDelimiter :: r) k true =
      (if 0 < k + b.length then 1 else 0) + frameCountFrom r 0 true := by
  rw [frameCountFrom_body hb, frameCountFrom, if_pos rfl]
  simp

/-- A non-empty body between two delimiters, anywhere in the stream, is counted. -/
theorem one_le_frameCountFrom {b : List UInt8} (hb : frameDelimiter ∉ b) (hne : b ≠ [])
    (n r : List UInt8) (k : Nat) (inFrame : Bool) :
    1 ≤ frameCountFrom (n ++ frameDelimiter :: (b ++ frameDelimiter :: r)) k inFrame := by
  induction n generalizing k inFrame with
  | nil =>
    have := List.length_pos_iff.2 hne
    rw [List.nil_append, frameCountFrom, if_pos rfl, frameCountFrom_close hb,
      if_pos (show 0 < 0 + b.length by omega)]
    omega
  | cons x n ih =>
    rw [List.cons_append, frameCountFrom]
    split_ifs
    · exact (ih _ _).trans (Nat.le_add_left ..)
    · exact (ih _ _).trans (Nat.le_add_left ..)
    · exact ih _ _
    · exact ih _ _

/-- The stream holds two neighbouring delimiters with something between them. -/
def HasNonEmptyFrame (s : List UInt8) : Prop :=
  ∃ n b r, s = n ++ frameDelimiter :: (b ++ frameDelimiter :: r) ∧ frameDelimiter ∉ b ∧ b ≠ []

theorem frameCountFrom_true_pos {s : List UInt8} {k : Nat} (h : 1 ≤ frameCountFrom s k true) :
    HasNonEmptyFrame s ∨
      ∃ b r, s = b ++ frameDelimiter :: r ∧ frameDelimiter ∉ b ∧ 0 < k + b.length := by
  induction s generalizing k with
  | nil => simp [frameCountFrom] at h
  | cons x s ih =>
    have hcons : HasNonEmptyFrame s → HasNonEmptyFrame (x :: s) :=
      fun ⟨n, b, r, hs, hb, hne⟩ => ⟨x :: n, b, r, by rw [hs]; rfl, hb, hne⟩
    by_cases hx : x = frameDelimiter
    · subst hx
      by_cases hk : 0 < k
      · exact .inr ⟨[], s, rfl, by simp, by simpa using hk⟩
      · rw [frameCountFrom, if_pos rfl, if_neg (by simp [hk]), Nat.zero_add] at h
        rcases ih h with hs | ⟨b, r, hs, hb, hpos⟩
        · exact .inl (hcons hs)
        · refine .inl ⟨[], b, r, by rw [hs]; rfl, hb, ?_⟩
          rintro rfl
          simp at hpos
    · rw [frameCountFrom, if_neg hx, if_pos rfl] at h
      rcases ih h with hs | ⟨b, r, hs, hb, -⟩
      · exact .inl (hcons hs)
      · exact .inr ⟨x :: b, r, by rw [hs]; rfl, by simp [hb, Ne.symm hx], by simp⟩

/-- **A frame is counted exactly when some body is not empty.** -/
theorem one_le_frameCount_iff {s : List UInt8} : 1 ≤ frameCount s ↔ HasNonEmptyFrame s := by
  constructor
  · intro h
    unfold frameCount at h
    induction s with
    | nil => simp [frameCountFrom] at h
    | cons x s ih =>
      by_cases hx : x = frameDelimiter
      · subst hx
        rw [frameCountFrom, if_pos rfl, if_neg (by simp), Nat.zero_add] at h
        rcases frameCountFrom_true_pos h with ⟨n, b, r, hs, hb, hne⟩ | ⟨b, r, hs, hb, hpos⟩
        · exact ⟨frameDelimiter :: n, b, r, by rw [hs]; rfl, hb, hne⟩
        · refine ⟨[], b, r, by rw [hs]; rfl, hb, ?_⟩
          rintro rfl
          simp at hpos
      · rw [frameCountFrom, if_neg hx] at h
        obtain ⟨n, b, r, hs, hb, hne⟩ := ih h
        exact ⟨x :: n, b, r, by rw [hs]; rfl, hb, hne⟩
  · rintro ⟨n, b, r, rfl, hb, hne⟩
    exact one_le_frameCountFrom hb hne n r 0 false

/-! ## Extracting a frame -/

/-- The extraction loop on a stream, `frame` being the bytes stored so far. -/
def readFrameFrom (frameCapacity : Nat) : List UInt8 → List UInt8 → FrameReply × List UInt8
  | [], frame => (⟨.errorInvalidFrame, frame, none⟩, [])
  | byte :: s, frame =>
    if frame.length = 0 then
      if byte ≠ frameDelimiter then readFrameFrom frameCapacity s frame
      else readFrameFrom frameCapacity s (frame ++ [byte])
    else if frameCapacity ≤ frame.length then (⟨.errorInvalidFrame, frame, none⟩, s)
    else if byte = frameDelimiter then
      (⟨.ok, frame ++ [byte], some (frame ++ [byte]).length⟩, s)
    else readFrameFrom frameCapacity s (frame ++ [byte])

def readFrame (frameCapacity : Nat) (s : List UInt8) : FrameReply × List UInt8 :=
  readFrameFrom frameCapacity s []

variable {frameCapacity : Nat} {n b r : List UInt8}

/-- Leading noise is skipped, and the first delimiter opens a frame. -/
theorem readFrame_open (hn : frameDelimiter ∉ n) (s : List UInt8) :
    readFrame frameCapacity (n ++ frameDelimiter :: s) =
      readFrameFrom frameCapacity s [frameDelimiter] := by
  unfold readFrame
  induction n with
  | nil => rfl
  | cons x n ih =>
    have hx : x ≠ frameDelimiter := fun h => hn (by simp [h])
    rw [List.cons_append, readFrameFrom, if_pos List.length_nil, if_pos hx]
    exact ih fun h => hn (by simp [h])

/-- Inside a frame, bytes that fit are stored. -/
theorem readFrameFrom_body (hb : frameDelimiter ∉ b) {frame : List UInt8}
    (hpos : 0 < frame.length) (hfit : frame.length + b.length ≤ frameCapacity) (s : List UInt8) :
    readFrameFrom frameCapacity (b ++ s) frame = readFrameFrom frameCapacity s (frame ++ b) := by
  induction b generalizing frame with
  | nil => simp
  | cons x b ih =>
    have hx : x ≠ frameDelimiter := fun h => hb (by simp [h])
    simp only [List.length_cons] at hfit
    rw [List.cons_append, readFrameFrom, if_neg (by omega), if_neg (by omega), if_neg hx,
      ih (fun h => hb (by simp [h])) (by simp) (by simp; omega), List.append_assoc,
      List.singleton_append]

theorem readFrame_fits (hn : frameDelimiter ∉ n) (hb : frameDelimiter ∉ b)
    (hfit : b.length + 2 ≤ frameCapacity) (r : List UInt8) :
    readFrame frameCapacity (n ++ frameDelimiter :: (b ++ frameDelimiter :: r)) =
      (⟨.ok, frameDelimiter :: (b ++ [frameDelimiter]), some (b.length + 2)⟩, r) := by
  rw [readFrame_open hn, readFrameFrom_body hb (by simp) (by simp; omega), readFrameFrom,
    if_neg (by simp), if_neg (by simp; omega), if_pos rfl]
  simp

/-- A body that does not fit: the buffer fills and the next byte ends the attempt. -/
theorem readFrame_overflow (hn : frameDelimiter ∉ n) (hb : frameDelimiter ∉ b)
    (hpos : 0 < frameCapacity) (hlong : frameCapacity < b.length + 2) (r : List UInt8) :
    readFrame frameCapacity (n ++ frameDelimiter :: (b ++ frameDelimiter :: r)) =
      (⟨.errorInvalidFrame, frameDelimiter :: b.take (frameCapacity - 1), none⟩,
        (b ++ frameDelimiter :: r).drop frameCapacity) := by
  have hsplit : b ++ frameDelimiter :: r =
      b.take (frameCapacity - 1) ++ (b ++ frameDelimiter :: r).drop (frameCapacity - 1) := by
    rw [List.drop_append_of_le_length (by omega), ← List.append_assoc, List.take_append_drop]
  have hnext : ∃ x, (b ++ frameDelimiter :: r).drop (frameCapacity - 1) =
      x :: (b ++ frameDelimiter :: r).drop frameCapacity := by
    have hlen : frameCapacity - 1 < (b ++ frameDelimiter :: r).length := by simp; omega
    exact ⟨_, by rw [List.drop_eq_getElem_cons hlen, Nat.sub_add_cancel hpos]⟩
  obtain ⟨x, hx⟩ := hnext
  have htake : frameDelimiter ∉ b.take (frameCapacity - 1) := fun h => hb (List.mem_of_mem_take h)
  rw [readFrame_open hn, hsplit, readFrameFrom_body htake (by simp)
    (by simp only [List.length_take, List.length_cons, List.length_nil]; omega), hx,
    readFrameFrom, if_neg (by simp), if_pos, ← hx, ← hsplit]
  · rfl
  · simp only [List.length_append, List.length_take, List.length_cons, List.length_nil]
    omega

/-! ## The receive path as an incremental consumer -/

/-- One item off a stream with a complete frame: the payload, or `none` for a frame that is
malformed or too long, and what is left of the stream. -/
def extract (s : List UInt8) : Option (Option (List UInt8) × List UInt8) :=
  if 2 ≤ s.count frameDelimiter then
    let (reply, rest) := readFrame maxEncodedByteCount s
    let decoded := decode 0 reply.frame
    some (if reply.status = .ok ∧ decoded.status = .ok then some decoded.data else none, rest)
  else none

theorem extract_eq_none_iff {s : List UInt8} : extract s = none ↔ s.count frameDelimiter < 2 := by
  unfold extract
  split_ifs with h <;> simp <;> omega

theorem two_le_count (hn : frameDelimiter ∉ n) (hb : frameDelimiter ∉ b) (r : List UInt8) :
    2 ≤ (n ++ frameDelimiter :: (b ++ frameDelimiter :: r)).count frameDelimiter := by
  rw [count_frame hn hb]
  exact Nat.le_add_left ..

theorem extract_fits (hn : frameDelimiter ∉ n) (hb : frameDelimiter ∉ b)
    (hfit : b.length + 2 ≤ maxEncodedByteCount) (r : List UInt8) :
    extract (n ++ frameDelimiter :: (b ++ frameDelimiter :: r)) = some (payloadOf b, r) := by
  rw [extract, if_pos (two_le_count hn hb r), readFrame_fits hn hb hfit]
  cases h : payloadOf b with
  | some data => simp [decode_of_payload h]
  | none => simp [decode_of_malformed h]

theorem extract_overflow (hn : frameDelimiter ∉ n) (hb : frameDelimiter ∉ b)
    (hlong : maxEncodedByteCount < b.length + 2) (r : List UInt8) :
    extract (n ++ frameDelimiter :: (b ++ frameDelimiter :: r)) =
      some (none, (b ++ frameDelimiter :: r).drop maxEncodedByteCount) := by
  rw [extract, if_pos (two_le_count hn hb r), readFrame_overflow hn hb (by decide) hlong]
  simp

/-- What one item takes off the stream: noise, and then a frame that fits or the first bytes of
one that does not. -/
theorem extract_cases {s rest : List UInt8} {item : Option (List UInt8)}
    (h : extract s = some (item, rest)) :
    ∃ n b r, s = n ++ frameDelimiter :: (b ++ frameDelimiter :: r) ∧ frameDelimiter ∉ n ∧
      frameDelimiter ∉ b ∧
      ((b.length + 2 ≤ maxEncodedByteCount ∧ item = payloadOf b ∧ rest = r) ∨
        (maxEncodedByteCount < b.length + 2 ∧ item = none ∧
          rest = (b ++ frameDelimiter :: r).drop maxEncodedByteCount)) := by
  have hcount : 2 ≤ s.count frameDelimiter := by
    by_contra hc
    rw [extract_eq_none_iff.2 (by omega)] at h
    exact absurd h (by simp)
  obtain ⟨n, b, r, rfl, hn, hb⟩ := exists_frame hcount
  refine ⟨n, b, r, rfl, hn, hb, ?_⟩
  by_cases hfit : b.length + 2 ≤ maxEncodedByteCount
  · rw [extract_fits hn hb hfit] at h
    obtain ⟨rfl, rfl⟩ := Prod.mk.inj (Option.some.inj h)
    exact .inl ⟨hfit, rfl, rfl⟩
  · rw [extract_overflow hn hb (by omega)] at h
    obtain ⟨rfl, rfl⟩ := Prod.mk.inj (Option.some.inj h)
    exact .inr ⟨by omega, rfl, rfl⟩

/-- The receive path: an item, once complete, does not depend on the bytes behind it. -/
def receiver : Incremental UInt8 (Option (List UInt8)) where
  step := extract
  step_append {s item rest} h t := by
    obtain ⟨n, b, r, rfl, hn, hb, ⟨hfit, rfl, rfl⟩ | ⟨hlong, rfl, rfl⟩⟩ := extract_cases h
    · simp only [List.append_assoc, List.cons_append]
      exact extract_fits hn hb hfit (rest ++ t)
    · simp only [List.append_assoc, List.cons_append]
      rw [extract_overflow hn hb hlong, ← List.drop_append_of_le_length (by simp; omega),
        List.append_assoc, List.cons_append]
  step_length {s item rest} h := by
    obtain ⟨n, b, r, rfl, hn, hb, ⟨-, -, rfl⟩ | ⟨-, -, rfl⟩⟩ := extract_cases h
    · simp; omega
    · simp; omega

theorem step_eq_none_iff {s : List UInt8} :
    receiver.step s = none ↔ s.count frameDelimiter < 2 := extract_eq_none_iff

@[simp] theorem step_nil : receiver.step [] = none := step_eq_none_iff.2 (by simp)

/-- A payload is shorter than the bytes its frame took. -/
theorem length_payload_lt {s rest data : List UInt8} (h : extract s = some (some data, rest)) :
    data.length + rest.length + 1 < s.length ∧ ValidPayload data := by
  obtain ⟨n, b, r, rfl, hn, hb, ⟨-, hitem, rfl⟩ | ⟨-, hitem, -⟩⟩ := extract_cases h
  · obtain ⟨hvalid, rfl⟩ := payloadOf_eq_some_iff.1 hitem.symm
    have := serialCode.le_length_stuff data
    refine ⟨?_, hvalid⟩
    simp only [List.length_append, List.length_cons]
    omega
  · exact absurd hitem (by simp)

end Xr17v358
