import Mathlib

/-!
# Noninterference by unwinding

The inputs of a deterministic machine are split into low ones and the rest. The rest do not
interfere when what the low inputs of a run return depends on the low inputs alone. It is enough to
find a relation on states that a low input keeps, returning the same on related states, and that
the other inputs cannot leave (`Unwinding`): then runs with the same low inputs return the same to
each of them (`Unwinding.noninterference`).
-/

namespace Noninterference

variable {σ ι ω : Type*} {step : σ → ι → ω × σ} {low : ι → Bool} {permitted : ι → Prop}
  {R : σ → σ → Prop} {s s' s₀ : σ} {is is' : List ι}

/-- The state after a run. -/
def final (step : σ → ι → ω × σ) (s : σ) (is : List ι) : σ :=
  is.foldl (fun s i => (step s i).2) s

/-- What the low inputs of a run return. -/
def lowOutputs (step : σ → ι → ω × σ) (low : ι → Bool) (s : σ) : List ι → List ω
  | [] => []
  | i :: is =>
    if low i then (step s i).1 :: lowOutputs step low (step s i).2 is
    else lowOutputs step low (step s i).2 is

theorem final_snoc (step : σ → ι → ω × σ) (s : σ) (is : List ι) (i : ι) :
    final step s (is ++ [i]) = (step (final step s is) i).2 := by
  rw [final, List.foldl_concat]
  rfl

theorem lowOutputs_snoc (step : σ → ι → ω × σ) (low : ι → Bool) (s : σ) (is : List ι) (i : ι) :
    lowOutputs step low s (is ++ [i]) =
      lowOutputs step low s is ++ if low i then [(step (final step s is) i).1] else [] := by
  induction is generalizing s with
  | nil =>
    rw [List.nil_append, lowOutputs, lowOutputs, lowOutputs]
    split_ifs <;> rfl
  | cons j is ih =>
    rw [List.cons_append, lowOutputs, lowOutputs, ih]
    by_cases hj : low j
    · rw [if_pos hj, if_pos hj]
      rfl
    · rw [if_neg hj, if_neg hj]
      rfl

/-- Related states agree on what a permitted low input returns and stay related; the other permitted
inputs keep a state related to what it was related to. -/
structure Unwinding (step : σ → ι → ω × σ) (low : ι → Bool) (permitted : ι → Prop)
    (R : σ → σ → Prop) : Prop where
  consistent : ∀ {s s' i}, permitted i → low i = true → R s s' →
    (step s i).1 = (step s' i).1 ∧ R (step s i).2 (step s' i).2
  respects : ∀ {s s' i}, permitted i → low i = false → R s s' → R (step s i).2 s'

/-- The other inputs can be left out of a run. -/
theorem Unwinding.purge (h : Unwinding step low permitted R) (hs : R s s')
    (his : ∀ i ∈ is, permitted i) :
    lowOutputs step low s is = lowOutputs step low s' (is.filter low) := by
  induction is generalizing s s' with
  | nil => rfl
  | cons i is ih =>
    obtain ⟨hpermitted, hrest⟩ := List.forall_mem_cons.1 his
    by_cases hi : low i = true
    · obtain ⟨hout, hnext⟩ := h.consistent hpermitted hi hs
      rw [List.filter_cons_of_pos hi, lowOutputs, lowOutputs, if_pos hi, if_pos hi, hout,
        ih hnext hrest]
    · rw [List.filter_cons_of_neg hi, lowOutputs, if_neg hi]
      exact ih (h.respects hpermitted (Bool.eq_false_iff.2 hi) hs) hrest

/-- Leaving them out makes no difference to the state that can be told apart. -/
theorem Unwinding.purge_final (h : Unwinding step low permitted R) (hs : R s s')
    (his : ∀ i ∈ is, permitted i) : R (final step s is) (final step s' (is.filter low)) := by
  induction is generalizing s s' with
  | nil => exact hs
  | cons i is ih =>
    obtain ⟨hpermitted, hrest⟩ := List.forall_mem_cons.1 his
    by_cases hi : low i = true
    · rw [List.filter_cons_of_pos hi]
      exact ih (h.consistent hpermitted hi hs).2 hrest
    · rw [List.filter_cons_of_neg hi]
      exact ih (h.respects hpermitted (Bool.eq_false_iff.2 hi) hs) hrest

/-- **Runs with the same low inputs return the same to each of them.** -/
theorem Unwinding.noninterference (h : Unwinding step low permitted R) (hs : R s s₀) (hs' : R s' s₀)
    (his : ∀ i ∈ is, permitted i) (his' : ∀ i ∈ is', permitted i)
    (hlow : is.filter low = is'.filter low) :
    lowOutputs step low s is = lowOutputs step low s' is' := by
  rw [h.purge hs his, h.purge hs' his', hlow]

end Noninterference
