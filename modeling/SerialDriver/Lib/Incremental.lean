import Mathlib

/-!
# Incremental consumers

A consumer takes items off the front of a buffered stream, one at a time, and waits when the
buffer does not hold a whole item. `step_append` says that an item, once recognised, does not
depend on what follows it.

`Steps s os r` is a run: from the buffer `s` the consumer takes the items `os` and leaves `r`.
Runs commute with arrivals (`Steps.append`), and two runs that can go no further agree
(`Steps.unique`). So the items taken, and what is left, depend on the stream alone and not on
how it was cut into arrivals or on when the consumer looked.
-/

structure Incremental (α β : Type*) where
  step : List α → Option (β × List α)
  step_append : ∀ {s o r}, step s = some (o, r) → ∀ t, step (s ++ t) = some (o, r ++ t)
  step_length : ∀ {s o r}, step s = some (o, r) → r.length < s.length

namespace Incremental

variable {α β : Type*} {c : Incremental α β} {s r r' : List α} {os os' : List β} {o : β}

/-- A run of the consumer on a buffer. -/
inductive Steps (c : Incremental α β) : List α → List β → List α → Prop
  | refl (s : List α) : Steps c s [] s
  | cons {s r r' : List α} {o : β} {os : List β} :
      c.step s = some (o, r) → Steps c r os r' → Steps c s (o :: os) r'

theorem Steps.single (h : c.step s = some (o, r)) : Steps c s [o] r := .cons h (.refl r)

theorem Steps.trans (h : Steps c s os r) (h' : Steps c r os' r') : Steps c s (os ++ os') r' := by
  induction h with
  | refl => exact h'
  | cons hstep _ ih => exact .cons hstep (ih h')

/-- **Arrivals commute with runs.** -/
theorem Steps.append (h : Steps c s os r) (t : List α) : Steps c (s ++ t) os (r ++ t) := by
  induction h with
  | refl s => exact .refl (s ++ t)
  | cons hstep _ ih => exact .cons (c.step_append hstep t) ih

theorem Steps.length_le (h : Steps c s os r) : r.length + os.length ≤ s.length := by
  induction h with
  | refl => simp
  | cons hstep _ ih =>
    have := c.step_length hstep
    simp only [List.length_cons]
    omega

/-- Of two runs from the same buffer, one extends the other. -/
theorem Steps.comparable (h : Steps c s os r) (h' : Steps c s os' r') :
    (∃ rest, os' = os ++ rest ∧ Steps c r rest r') ∨
      ∃ rest, os = os' ++ rest ∧ Steps c r' rest r := by
  induction h generalizing os' with
  | refl => exact .inl ⟨os', rfl, h'⟩
  | @cons s r₁ r o os hstep hrun ih =>
    cases h' with
    | refl => exact .inr ⟨o :: os, rfl, .cons hstep hrun⟩
    | cons hstep' hrun' =>
      rw [hstep] at hstep'
      obtain ⟨rfl, rfl⟩ := Prod.mk.inj (Option.some.inj hstep')
      rcases ih hrun' with ⟨rest, rfl, hrest⟩ | ⟨rest, rfl, hrest⟩
      · exact .inl ⟨rest, rfl, hrest⟩
      · exact .inr ⟨rest, rfl, hrest⟩

/-- The items taken determine what is left. -/
theorem Steps.rest_unique (h : Steps c s os r) (h' : Steps c s os r') : r = r' := by
  induction h with
  | refl =>
    cases h'
    rfl
  | cons hstep _ ih =>
    cases h' with
    | cons hstep' hrun' =>
      rw [hstep] at hstep'
      obtain ⟨-, rfl⟩ := Prod.mk.inj (Option.some.inj hstep')
      exact ih hrun'

/-- Nothing follows a run that can go no further. -/
theorem Steps.eq_nil (h : Steps c s os r) (hs : c.step s = none) : os = [] ∧ r = s := by
  cases h with
  | refl => exact ⟨rfl, rfl⟩
  | cons hstep _ => rw [hs] at hstep; exact absurd hstep (by simp)

/-- A run that can go no further extends every other run from the same buffer. -/
theorem Steps.extends (h : Steps c s os r) (h' : Steps c s os' r') (hstuck : c.step r' = none) :
    ∃ rest, os' = os ++ rest ∧ Steps c r rest r' := by
  rcases h.comparable h' with hext | ⟨rest, rfl, hrest⟩
  · exact hext
  · obtain ⟨rfl, rfl⟩ := hrest.eq_nil hstuck
    exact ⟨[], by simp, .refl _⟩

/-- **Exhaustive runs agree.** -/
theorem Steps.unique (h : Steps c s os r) (hr : c.step r = none) (h' : Steps c s os' r')
    (hr' : c.step r' = none) : os = os' ∧ r = r' := by
  obtain ⟨rest, rfl, hrest⟩ := h.extends h' hr'
  obtain ⟨rfl, rfl⟩ := hrest.eq_nil hr
  simp

end Incremental
