import Mathlib

/-!
# Machines that answer, and their abstractions

A machine takes inputs one at a time, answers each, and changes its state. An abstraction maps the
states of one machine to the states of another so that steps from corresponding states give the same
answer and end in corresponding states. Then whole runs do (`Abstraction.run_eq`).
-/

structure Machine (σ ι ο : Type*) where
  step : σ → ι → ο × σ

namespace Machine

variable {σ τ ι ο : Type*}

/-- Take the inputs in order: the answers, and the state afterwards. -/
def run (M : Machine σ ι ο) (s : σ) : List ι → List ο × σ
  | [] => ([], s)
  | i :: is =>
    let (o, s) := M.step s i
    let (os, s) := M.run s is
    (o :: os, s)

theorem run_cons (M : Machine σ ι ο) (s : σ) (i : ι) (is : List ι) :
    M.run s (i :: is) =
      ((M.step s i).1 :: (M.run (M.step s i).2 is).1, (M.run (M.step s i).2 is).2) := rfl

/-- A map of states that commutes with every step. -/
structure Abstraction (M : Machine σ ι ο) (N : Machine τ ι ο) where
  abs : σ → τ
  answer : ∀ s i, (M.step s i).1 = (N.step (abs s) i).1
  after : ∀ s i, abs (M.step s i).2 = (N.step (abs s) i).2

namespace Abstraction

variable {M : Machine σ ι ο} {N : Machine τ ι ο}

/-- **Runs from corresponding states correspond.** -/
theorem run_eq (f : Abstraction M N) (s : σ) (is : List ι) :
    (M.run s is).1 = (N.run (f.abs s) is).1 ∧ f.abs (M.run s is).2 = (N.run (f.abs s) is).2 := by
  induction is generalizing s with
  | nil => exact ⟨rfl, rfl⟩
  | cons i is ih =>
    obtain ⟨hanswers, hfinal⟩ := ih (M.step s i).2
    rw [run_cons, run_cons, ← f.answer, ← f.after, hanswers]
    exact ⟨rfl, hfinal⟩

end Abstraction

end Machine
