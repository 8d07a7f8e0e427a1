import SerialDriver.Framing

/-!
# Streams of encodings

On a concatenation of encodings the receive path takes the payloads in order and leaves nothing
(`steps_encodings`). A buffer that holds the front of such a stream stays aligned with it: what the
receive path takes off it is a list of whole payloads, and the rest is the front of the encodings
not taken yet (`steps_aligned`).
-/

namespace Xr17v358

open Delimited Incremental

theorem extract_encode {noise d : List UInt8} (hn : frameDelimiter ∉ noise) (hd : ValidPayload d)
    (r : List UInt8) : extract (noise ++ (encode d ++ r)) = some (some d, r) := by
  have hlen := length_encode_le d
  rw [encode_eq hd] at hlen ⊢
  simp only [List.length_cons, List.length_append, List.length_nil] at hlen
  rw [List.cons_append, List.append_assoc, List.singleton_append,
    extract_fits hn (delimiter_not_mem_stuff d) (by omega), payloadOf_stuff hd]

/-- Payloads whose encodings stand behind noise are taken in order. -/
theorem steps_blocks {blocks : List (List UInt8 × List UInt8)}
    (hblocks : ∀ b ∈ blocks, frameDelimiter ∉ b.1 ∧ ValidPayload b.2) (s : List UInt8) :
    Steps receiver ((blocks.flatMap fun b => b.1 ++ encode b.2) ++ s)
      (blocks.map fun b => some b.2) s := by
  induction blocks with
  | nil => exact .refl s
  | cons b blocks ih =>
    obtain ⟨hn, hd⟩ := hblocks b (List.mem_cons_self ..)
    refine .cons ?_ (ih fun b hb => hblocks b (List.mem_cons_of_mem _ hb))
    rw [List.flatMap_cons, List.append_assoc, List.append_assoc]
    exact extract_encode hn hd _

/-- A run that takes only payloads has found blocks of noise and an encoding. -/
theorem exists_blocks {s s' : List UInt8} {ds : List (List UInt8)}
    (h : Steps receiver s (ds.map some) s') :
    ∃ blocks : List (List UInt8 × List UInt8),
      (∀ b ∈ blocks, frameDelimiter ∉ b.1 ∧ ValidPayload b.2) ∧ blocks.map Prod.snd = ds ∧
        s = (blocks.flatMap fun b => b.1 ++ encode b.2) ++ s' := by
  induction ds generalizing s with
  | nil =>
    cases h with
    | refl => exact ⟨[], by simp, rfl, rfl⟩
  | cons d ds ih =>
    cases h with
    | cons hstep hrun =>
      obtain ⟨blocks, hblocks, rfl, rfl⟩ := ih hrun
      obtain ⟨n, b, r, rfl, hn, hb, ⟨-, hitem, rfl⟩ | ⟨-, hitem, -⟩⟩ := extract_cases hstep
      · obtain ⟨hd, rfl⟩ := payloadOf_eq_some_iff.1 hitem.symm
        refine ⟨(n, d) :: blocks, ?_, rfl, ?_⟩
        · rintro b (_ | ⟨_, hb⟩)
          · exact ⟨hn, hd⟩
          · exact hblocks b hb
        · rw [List.flatMap_cons, encode_eq hd]
          simp
      · exact absurd hitem (by simp)

theorem valid_of_steps {s s' : List UInt8} {ds : List (List UInt8)}
    (h : Steps receiver s (ds.map some) s') : ∀ d ∈ ds, ValidPayload d := by
  obtain ⟨blocks, hblocks, rfl, -⟩ := exists_blocks h
  intro d hd
  obtain ⟨b, hb, rfl⟩ := List.mem_map.1 hd
  exact (hblocks b hb).2

theorem reduceOption_map_some (ds : List (List UInt8)) : (ds.map some).reduceOption = ds := by
  induction ds with
  | nil => rfl
  | cons d ds ih => rw [List.map_cons, List.reduceOption_cons_of_some, ih]

/-- The payloads of a run are shorter than the bytes it took, by a byte for each item at least. -/
theorem length_payloads_le {s s' : List UInt8} {os : List (Option (List UInt8))}
    (h : Steps receiver s os s') :
    os.reduceOption.flatten.length + s'.length + os.length ≤ s.length := by
  induction h with
  | refl s => simp
  | @cons s r r' o os hstep _ ih =>
    rw [List.length_cons]
    cases o with
    | none =>
      have := receiver.step_length hstep
      rw [List.reduceOption_cons_of_none]
      omega
    | some d =>
      have := (length_payload_lt hstep).1
      rw [List.reduceOption_cons_of_some, List.flatten_cons, List.length_append]
      omega

theorem length_flatten_pos {ds : List (List UInt8)} (hds : ∀ d ∈ ds, ValidPayload d)
    (hne : ds ≠ []) : 0 < ds.flatten.length := by
  obtain ⟨d, ds, rfl⟩ := List.exists_cons_of_ne_nil hne
  have := (hds d (List.mem_cons_self ..)).1
  rw [List.flatten_cons, List.length_append]
  omega

theorem flatMap_noiseless (ds : List (List UInt8)) :
    ((ds.map fun d => (([], d) : List UInt8 × List UInt8)).flatMap fun b => b.1 ++ encode b.2) =
      ds.flatMap encode := by
  rw [List.flatMap_map]
  rfl

/-- **Encodings are taken in order.** -/
theorem steps_encodings {ds : List (List UInt8)} (h : ∀ d ∈ ds, ValidPayload d)
    (s : List UInt8) : Steps receiver (ds.flatMap encode ++ s) (ds.map some) s := by
  have hsteps := @steps_blocks (ds.map fun d => ([], d))
    (fun b hb => by
      obtain ⟨d, hd, rfl⟩ := List.mem_map.1 hb
      exact ⟨by simp, h d hd⟩) s
  rwa [flatMap_noiseless, List.map_map] at hsteps

/-! ## A buffer in front of the rest of the stream -/

theorem steps_aligned {fifo fifo' rest : List UInt8} {ds : List (List UInt8)}
    {os : List (Option (List UInt8))} (hds : ∀ d ∈ ds, ValidPayload d)
    (hstream : fifo ++ rest = ds.flatMap encode) (h : Steps receiver fifo os fifo') :
    ∃ taken left, ds = taken ++ left ∧ os = taken.map some ∧
      fifo' ++ rest = left.flatMap encode := by
  have hwhole : Steps receiver (fifo ++ rest) (ds.map some) [] := by
    have := steps_encodings hds []
    rwa [List.append_nil, ← hstream] at this
  obtain ⟨os', hos, hrest⟩ := (h.append rest).extends hwhole step_nil
  obtain ⟨taken, left, rfl, rfl, rfl⟩ := List.map_eq_append_iff.1 hos
  refine ⟨taken, left, rfl, rfl, ?_⟩
  have htaken : Steps receiver (fifo ++ rest) (taken.map some) (left.flatMap encode) := by
    have := steps_encodings (fun d hd => hds d (List.mem_append_left _ hd)) (left.flatMap encode)
    rwa [hstream, List.flatMap_append]
  exact (h.append rest).rest_unique htaken

/-- A buffer without a complete frame is empty or cut inside the next encoding. -/
theorem stuck_aligned {fifo rest : List UInt8} {ds : List (List UInt8)}
    (hds : ∀ d ∈ ds, ValidPayload d) (hstream : fifo ++ rest = ds.flatMap encode)
    (hstuck : receiver.step fifo = none) (hne : fifo ≠ []) :
    ∃ d, ds.head? = some d ∧ fifo <+: encode d ∧ fifo ≠ encode d := by
  cases ds with
  | nil => exact absurd (List.append_eq_nil_iff.1 hstream).1 hne
  | cons d ds =>
    rw [List.flatMap_cons] at hstream
    have hd := hds d (List.mem_cons_self ..)
    have hshort : ¬ encode d <+: fifo := by
      rintro ⟨r, rfl⟩
      have := @extract_encode [] d (by simp) hd r
      rw [List.nil_append] at this
      exact absurd (hstuck.symm.trans this) (by simp)
    have hfifo : fifo <+: encode d ++ ds.flatMap encode := ⟨rest, hstream⟩
    rcases List.prefix_or_prefix_of_prefix hfifo (List.prefix_append ..) with h | h
    · exact ⟨d, rfl, h, fun he => hshort (he ▸ List.prefix_rfl)⟩
    · exact absurd h hshort

/-- A complete frame is buffered exactly when the next encoding is buffered whole. -/
theorem complete_aligned {fifo rest : List UInt8} {ds : List (List UInt8)}
    (hds : ∀ d ∈ ds, ValidPayload d) (hstream : fifo ++ rest = ds.flatMap encode) :
    2 ≤ fifo.count frameDelimiter ↔ ∃ d, ds.head? = some d ∧ encode d <+: fifo := by
  constructor
  · intro hcount
    obtain ⟨⟨item, fifo'⟩, hstep⟩ : ∃ out, receiver.step fifo = some out :=
      Option.ne_none_iff_exists'.1 fun h => by
        have := step_eq_none_iff.1 h
        omega
    obtain ⟨taken, left, rfl, htaken, hleft⟩ := steps_aligned hds hstream (.single hstep)
    obtain ⟨d, rfl, rfl⟩ : ∃ d, taken = [d] ∧ item = some d := by
      match taken, htaken with
      | [d], htaken => exact ⟨d, rfl, (List.cons.inj htaken).1⟩
    refine ⟨d, rfl, ?_⟩
    have hencode : encode d <+: fifo ++ rest := by
      rw [hstream, List.flatMap_append, List.flatMap_singleton]
      exact List.prefix_append ..
    have hlength : fifo'.length + (encode d).length = fifo.length := by
      have h₁ := congrArg List.length hstream
      have h₂ := congrArg List.length hleft
      simp only [List.length_append, List.flatMap_append, List.flatMap_singleton] at h₁ h₂
      omega
    exact List.prefix_of_prefix_length_le hencode (List.prefix_append ..) (by omega)
  · rintro ⟨d, hhead, r, rfl⟩
    have hd : ValidPayload d := hds d (List.mem_of_mem_head? hhead)
    have := @extract_encode [] d (by simp) hd r
    rw [List.nil_append] at this
    by_contra hcount
    rw [extract_eq_none_iff.2 (by omega)] at this
    exact absurd this (by simp)

end Xr17v358
