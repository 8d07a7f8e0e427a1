import Mathlib

/-!
# Pipes

A pipe keeps what is put in and not yet taken out, in order, without a bound. `Run` is a sequence of
actions on a pipe that starts empty. What is taken and what is left make up what was put in
(`Run.balance`), so at any moment what has been taken is a front of what has been put in
(`Run.taken_prefix`).
-/

namespace Pipe

variable {α : Type*}

inductive Action (α : Type*)
  | put (xs : List α)
  | take (xs : List α)

/-- The actions of a pipe, and what it keeps after them. -/
inductive Run : List (Action α) → List α → Prop
  | nil : Run [] []
  | put {acts : List (Action α)} {kept : List α} (h : Run acts kept) (xs : List α) :
      Run (acts ++ [.put xs]) (kept ++ xs)
  | take {acts : List (Action α)} {xs kept : List α} (h : Run acts (xs ++ kept)) :
      Run (acts ++ [.take xs]) kept

def puts (acts : List (Action α)) : List α :=
  acts.flatMap fun
    | .put xs => xs
    | .take _ => []

def takes (acts : List (Action α)) : List α :=
  acts.flatMap fun
    | .put _ => []
    | .take xs => xs

theorem puts_append (acts acts' : List (Action α)) :
    puts (acts ++ acts') = puts acts ++ puts acts' :=
  List.flatMap_append

theorem takes_append (acts acts' : List (Action α)) :
    takes (acts ++ acts') = takes acts ++ takes acts' :=
  List.flatMap_append

variable {acts acts' : List (Action α)} {kept : List α}

/-- **Nothing is lost, repeated or reordered.** -/
theorem Run.balance (h : Run acts kept) : takes acts ++ kept = puts acts := by
  induction h with
  | nil => rfl
  | @put acts kept _ xs ih =>
    rw [takes_append, puts_append, ← ih]
    simp [puts, takes]
  | @take acts xs kept _ ih =>
    rw [takes_append, puts_append, ← ih]
    simp [puts, takes]

theorem Run.of_append (h : Run (acts ++ acts') kept) : ∃ kept', Run acts kept' := by
  induction acts' using List.reverseRecOn generalizing kept with
  | nil => exact ⟨kept, by rwa [List.append_nil] at h⟩
  | append_singleton acts' act ih =>
    rw [← List.append_assoc] at h
    generalize hacts : acts ++ acts' ++ [act] = whole at h
    cases h with
    | nil => simp at hacts
    | put h xs =>
      obtain ⟨rfl, -⟩ := List.append_inj' hacts rfl
      exact ih h
    | take h =>
      obtain ⟨rfl, -⟩ := List.append_inj' hacts rfl
      exact ih h

/-- **At any moment, what was taken is a front of what was put in.** -/
theorem Run.taken_prefix (h : Run acts kept) {acts' : List (Action α)} (hpre : acts' <+: acts) :
    takes acts' <+: puts acts' := by
  obtain ⟨rest, rfl⟩ := hpre
  obtain ⟨kept', h'⟩ := h.of_append
  exact ⟨kept', h'.balance⟩

end Pipe
