import SerialDriver.FrameScans

/-!
# The wire format

A line carries one encoding after another. The line determines the payloads, and an encoding occurs
on it only where the encoder put it: two encodings never combine into a third, at whatever position
a receiver looks (`wireFormat_unambiguous`). An escape never hides a delimiter, so the encodings are
frames with a body, and what holds of a stream of frames (`Delimited.frame_occurs`) holds of the line.
-/

namespace Xr17v358

open Delimited Incremental

variable {ds ds' : List (List UInt8)}

/-- The line as a stream of frames. -/
theorem flatMap_encode (hds : ∀ d ∈ ds, ValidPayload d) :
    ds.flatMap encode = (ds.map serialCode.stuff).flatMap (frame frameDelimiter) := by
  rw [List.flatMap_map]
  exact List.flatMap_congr fun d hd => encode_eq (hds d hd)

theorem bodies_free (ds : List (List UInt8)) :
    ∀ b ∈ ds.map serialCode.stuff, frameDelimiter ∉ b := by
  intro b hb
  obtain ⟨d, -, rfl⟩ := List.mem_map.1 hb
  exact delimiter_not_mem_stuff d

/-- An encoding on the line is one of those that the encoder put there. -/
theorem encode_occurs (hds : ∀ d ∈ ds, ValidPayload d) {d : List UInt8} (hd : ValidPayload d)
    {u v : List UInt8} (h : ds.flatMap encode = u ++ encode d ++ v) :
    ∃ front back, ds = front ++ d :: back ∧ u = front.flatMap encode ∧ v = back.flatMap encode := by
  have hbody : serialCode.stuff d ≠ [] :=
    serialCode.stuff_ne_nil (List.ne_nil_of_length_pos hd.1)
  rw [flatMap_encode hds, List.append_assoc, encode_eq hd] at h
  obtain ⟨front, back, hsplit, rfl, rfl⟩ :=
    frame_occurs (bodies_free ds) (delimiter_not_mem_stuff d) hbody h
  obtain ⟨ds₁, ds₂, rfl, rfl, hback⟩ := List.map_eq_append_iff.1 hsplit
  obtain ⟨d', ds₃, rfl, hstuff, rfl⟩ := List.map_eq_cons_iff.1 hback
  obtain rfl := serialCode.stuff_injective hstuff
  refine ⟨ds₁, ds₃, rfl, ?_, ?_⟩
  · exact (flatMap_encode fun d hd => hds d (by simp [hd])).symm
  · exact (flatMap_encode fun d hd => hds d (by simp [hd])).symm

theorem encodings_injective (hds : ∀ d ∈ ds, ValidPayload d) (hds' : ∀ d ∈ ds', ValidPayload d)
    (h : ds.flatMap encode = ds'.flatMap encode) : ds = ds' := by
  rw [flatMap_encode hds, flatMap_encode hds'] at h
  exact List.map_injective_iff.2 serialCode.stuff_injective
    (frames_injective (bodies_free ds) (bodies_free ds') h)

/-- **The line is unambiguous.** What the encoder writes for a list of payloads determines the
payloads; and wherever the bytes that it writes for a payload occur on the line, it wrote them for
that payload: the line before them, and the line behind them, carry whole encodings. -/
theorem wireFormat_unambiguous (hds : ∀ d ∈ ds, ValidPayload d) :
    (∀ ds', (∀ d ∈ ds', ValidPayload d) → ds.flatMap encode = ds'.flatMap encode → ds = ds') ∧
      ∀ d, ValidPayload d → ∀ u v, ds.flatMap encode = u ++ encode d ++ v →
        ∃ front back, ds = front ++ d :: back ∧ u = front.flatMap encode ∧
          v = back.flatMap encode :=
  ⟨fun _ hds' => encodings_injective hds hds', fun _ hd _ _ => encode_occurs hds hd⟩

theorem wireFormat_unambiguous_escapes : ∃ front back,
    [[0x7E, 0x7D], [0x5E], [0x7E]] = front ++ [0x5E] :: back ∧
      [0x7E, 0x7D, 0x5E, 0x7D, 0x5D, 0x7E] = front.flatMap encode := by
  have hds : ∀ d ∈ [[0x7E, 0x7D], [0x5E], [0x7E]], ValidPayload d := by decide
  obtain ⟨front, back, hsplit, hfront, -⟩ := (wireFormat_unambiguous hds).2 [0x5E] (by decide)
    [0x7E, 0x7D, 0x5E, 0x7D, 0x5D, 0x7E] [0x7E, 0x7D, 0x5E, 0x7E] (by decide)
  exact ⟨front, back, hsplit, hfront⟩

end Xr17v358
