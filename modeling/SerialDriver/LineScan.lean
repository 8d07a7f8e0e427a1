import SerialDriver.Stream

/-!
# The receive path, byte by byte

`scan` is a receiver that looks at one byte at a time: it is between frames or inside one, a frame
that fills the frame buffer is given up at the next byte, and a delimiter ends a frame or opens
one, but never both. The receive path computes the same payload bytes (`delivered_of_steps`), so
what it delivers is a function of the line. In front of encodings the line decides whether they are
read in step (`delivered_garbage`).
-/

namespace Xr17v358

open Delimited Incremental

/-- Where the receiver stands: between frames, or inside a frame with this body so far. -/
inductive LineState
  | idle
  | inside (body : List UInt8)
  deriving DecidableEq

/-- One byte: the state, and the payload bytes of the frame that the byte ends. -/
def LineState.next : LineState → UInt8 → LineState × List UInt8
  | idle, byte => (if byte = frameDelimiter then inside [] else idle, [])
  | inside body, byte =>
    -- The frame buffer holds the opening delimiter and the body.
    if maxEncodedByteCount ≤ body.length + 1 then (idle, [])
    else if byte = frameDelimiter then (idle, (payloadOf body).getD [])
    else (inside (body ++ [byte]), [])

/-- Some bytes: the state, and all payload bytes on the way. -/
def scan : LineState → List UInt8 → LineState × List UInt8
  | state, [] => (state, [])
  | state, byte :: s =>
    let (state, data) := state.next byte
    let (state, rest) := scan state s
    (state, data ++ rest)

/-- The state after a line that starts between frames. -/
def lineAfter (s : List UInt8) : LineState := (scan .idle s).1

/-- The payload bytes of a line that starts between frames. -/
def delivered (s : List UInt8) : List UInt8 := (scan .idle s).2

variable {n b r s t rest : List UInt8} {state : LineState}

/-! ## Scanning -/

theorem scan_cons (state : LineState) (byte : UInt8) (s : List UInt8) :
    scan state (byte :: s) =
      ((scan (state.next byte).1 s).1, (state.next byte).2 ++ (scan (state.next byte).1 s).2) :=
  rfl

theorem scan_append (state : LineState) (s t : List UInt8) :
    scan state (s ++ t) =
      ((scan (scan state s).1 t).1, (scan state s).2 ++ (scan (scan state s).1 t).2) := by
  induction s generalizing state with
  | nil => rfl
  | cons byte s ih => rw [List.cons_append, scan_cons, scan_cons, ih, List.append_assoc]

theorem scan_noise (hn : frameDelimiter ∉ n) : scan .idle n = (.idle, []) := by
  induction n with
  | nil => rfl
  | cons byte n ih =>
    have hbyte : byte ≠ frameDelimiter := fun h => hn (by simp [h])
    rw [scan_cons, LineState.next, if_neg hbyte, ih fun h => hn (by simp [h])]
    rfl

theorem scan_delimiter (s : List UInt8) :
    scan .idle (frameDelimiter :: s) = scan (.inside []) s := rfl

theorem scan_body {body : List UInt8} (hb : frameDelimiter ∉ b)
    (hfit : body.length + b.length + 1 ≤ maxEncodedByteCount) :
    scan (.inside body) b = (.inside (body ++ b), []) := by
  induction b generalizing body with
  | nil => rw [List.append_nil]; rfl
  | cons byte b ih =>
    have hbyte : byte ≠ frameDelimiter := fun h => hb (by simp [h])
    rw [List.length_cons] at hfit
    rw [scan_cons, LineState.next, if_neg (by omega), if_neg hbyte]
    dsimp only
    rw [ih (fun h => hb (by simp [h])) (by simp; omega), List.append_assoc]
    rfl

/-- A frame that fits ends at its closing delimiter. -/
theorem scan_fits (hb : frameDelimiter ∉ b) (hfit : b.length + 2 ≤ maxEncodedByteCount) :
    scan .idle (frameDelimiter :: (b ++ [frameDelimiter])) =
      (.idle, (payloadOf b).getD []) := by
  rw [scan_delimiter, scan_append, scan_body hb (by rw [List.length_nil]; omega), scan_cons,
    LineState.next, List.nil_append, if_neg (by omega), if_pos rfl]
  simp [scan]

/-- A frame that does not fit is given up one byte after the frame buffer is full. -/
theorem scan_overflow (hb : frameDelimiter ∉ b) (hlong : maxEncodedByteCount < b.length + 2)
    (r : List UInt8) :
    scan .idle (frameDelimiter :: (b ++ frameDelimiter :: r).take maxEncodedByteCount) =
      (.idle, []) := by
  have hpos : 0 < maxEncodedByteCount := by decide
  have hlen : maxEncodedByteCount - 1 < (b ++ frameDelimiter :: r).length := by
    rw [List.length_append, List.length_cons]
    omega
  have htake : (b ++ frameDelimiter :: r).take maxEncodedByteCount =
      b.take (maxEncodedByteCount - 1) ++ [(b ++ frameDelimiter :: r)[maxEncodedByteCount - 1]] := by
    have hsplit := List.take_succ_eq_append_getElem hlen
    have hbody : (b ++ frameDelimiter :: r).take (maxEncodedByteCount - 1) =
        b.take (maxEncodedByteCount - 1) := List.take_append_of_le_length (by omega)
    rwa [Nat.sub_add_cancel hpos, hbody] at hsplit
  have hfull : (b.take (maxEncodedByteCount - 1)).length + 1 = maxEncodedByteCount := by
    rw [List.length_take]
    omega
  have hfree : frameDelimiter ∉ b.take (maxEncodedByteCount - 1) :=
    fun h => hb (List.mem_of_mem_take h)
  rw [htake, scan_delimiter, scan_append, scan_body hfree (by rw [List.length_nil]; omega),
    scan_cons, LineState.next, List.nil_append, if_pos hfull.ge]
  rfl

/-- Only a delimiter delivers. -/
theorem scan_silent (hs : frameDelimiter ∉ s) (state : LineState) : (scan state s).2 = [] := by
  induction s generalizing state with
  | nil => rfl
  | cons byte s ih =>
    have hbyte : byte ≠ frameDelimiter := fun h => hs (by simp [h])
    have hnext : (state.next byte).2 = [] := by
      cases state with
      | idle => rfl
      | inside body =>
        rw [LineState.next, if_neg hbyte]
        split_ifs <;> rfl
    rw [scan_cons, hnext, ih fun h => hs (by simp [h])]
    rfl

/-! ## The receive path scans the line -/

/-- One item takes a front of the line that a scan reads in the same way. -/
theorem scan_extract {item : Option (List UInt8)} (h : extract s = some (item, rest)) :
    ∃ front, s = front ++ rest ∧ scan .idle front = (.idle, item.getD []) := by
  obtain ⟨n, b, r, rfl, hn, hb, ⟨hfit, rfl, rfl⟩ | ⟨hlong, rfl, rfl⟩⟩ := extract_cases h
  · refine ⟨n ++ frameDelimiter :: (b ++ [frameDelimiter]), by simp, ?_⟩
    rw [scan_append, scan_noise hn, scan_fits hb hfit]
    rfl
  · refine ⟨n ++ frameDelimiter :: (b ++ frameDelimiter :: r).take maxEncodedByteCount, ?_, ?_⟩
    · rw [List.append_assoc, List.cons_append, List.take_append_drop]
    · rw [scan_append, scan_noise hn, scan_overflow hb hlong]
      rfl

theorem scan_steps {os : List (Option (List UInt8))} (h : Steps receiver s os rest) :
    ∃ front, s = front ++ rest ∧ scan .idle front = (.idle, os.reduceOption.flatten) := by
  induction h with
  | refl s => exact ⟨[], rfl, rfl⟩
  | @cons s r r' o os hstep _ ih =>
    obtain ⟨front, rfl, hscan⟩ := scan_extract hstep
    obtain ⟨front', rfl, hscan'⟩ := ih
    refine ⟨front ++ front', by simp, ?_⟩
    rw [scan_append, hscan, hscan']
    cases o with
    | none => rfl
    | some d => rw [List.reduceOption_cons_of_some, List.flatten_cons]; rfl

theorem delivered_stuck (h : s.count frameDelimiter < 2) : delivered s = [] := by
  by_cases hnone : frameDelimiter ∈ s
  · obtain ⟨n, b, rfl, hn⟩ := List.eq_append_cons_of_mem hnone
    rw [count_split hn] at h
    have hb : frameDelimiter ∉ b := List.count_eq_zero.1 (by omega)
    rw [delivered, scan_append, scan_noise hn]
    exact scan_silent hb _
  · exact scan_silent hnone _

/-- **An exhausted run of the receive path has delivered the line's payload bytes.** -/
theorem delivered_of_steps {os : List (Option (List UInt8))} (h : Steps receiver s os rest)
    (hstuck : receiver.step rest = none) : os.reduceOption.flatten = delivered s := by
  obtain ⟨front, rfl, hscan⟩ := scan_steps h
  have hrest := delivered_stuck (step_eq_none_iff.1 hstuck)
  rw [delivered] at hrest ⊢
  rw [scan_append, hscan, hrest]
  exact (List.append_nil _).symm

/-! ## Encodings behind garbage -/

/-- Between frames, encodings are read in step. -/
theorem scan_encodings {ds : List (List UInt8)} (hds : ∀ d ∈ ds, ValidPayload d) :
    scan .idle (ds.flatMap encode) = (.idle, ds.flatten) := by
  obtain ⟨front, hfront, hscan⟩ := scan_steps (steps_encodings hds [])
  rw [List.append_nil, List.append_nil] at hfront
  rw [hfront, hscan, reduceOption_map_some]

/-- One delimiter late, the bodies of encodings are noise and their delimiters pair up around
nothing. -/
theorem scan_shifted {ds : List (List UInt8)} (hds : ∀ d ∈ ds, ValidPayload d)
    (hb : frameDelimiter ∉ b) : (scan .idle (b ++ frameDelimiter :: ds.flatMap encode)).2 = [] := by
  induction ds generalizing b with
  | nil =>
    rw [scan_append, scan_noise hb]
    rfl
  | cons d ds ih =>
    have hrest := ih (fun x hx => hds x (List.mem_cons_of_mem _ hx)) (delimiter_not_mem_stuff d)
    rw [List.flatMap_cons, encode_eq (hds d (List.mem_cons_self ..)), List.cons_append,
      List.append_assoc, List.singleton_append, scan_append, scan_noise hb]
    -- The delimiter opens a frame that the next encoding's first delimiter ends at once.
    exact hrest

/-- Inside a frame, the first delimiter of encodings ends it, and nothing after it is delivered. -/
theorem scan_inside {ds : List (List UInt8)} (hds : ∀ d ∈ ds, ValidPayload d) {body : List UInt8} :
    (scan (.inside body) (ds.flatMap encode)).2 =
      if ds = [] then [] else (scan (.inside body) [frameDelimiter]).2 := by
  cases ds with
  | nil => rfl
  | cons d ds =>
    have hshifted := scan_shifted (fun x hx => hds x (List.mem_cons_of_mem _ hx))
      (delimiter_not_mem_stuff d)
    have hidle : (LineState.next (.inside body) frameDelimiter).1 = .idle := by
      rw [LineState.next, if_pos (rfl : frameDelimiter = frameDelimiter)]
      split_ifs <;> rfl
    rw [List.flatMap_cons, encode_eq (hds d (List.mem_cons_self ..)), List.cons_append,
      List.append_assoc, List.singleton_append, scan_cons, scan_cons, hidle, hshifted]
    simp [scan]

/-- **What is delivered of encodings behind garbage**: all their payloads when the garbage leaves
the line between frames, and otherwise only what the garbage delivers itself. -/
theorem delivered_garbage {ds : List (List UInt8)} (hds : ∀ d ∈ ds, ValidPayload d)
    (hne : ds ≠ []) (g : List UInt8) :
    delivered (g ++ ds.flatMap encode) =
      if lineAfter g = .idle then delivered g ++ ds.flatten
      else delivered (g ++ [frameDelimiter]) := by
  unfold delivered lineAfter
  rw [scan_append, scan_append]
  dsimp only
  cases hline : (scan .idle g).1 with
  | idle => rw [if_pos rfl, scan_encodings hds]
  | inside body => rw [if_neg (by simp), scan_inside hds, if_neg hne]

end Xr17v358
