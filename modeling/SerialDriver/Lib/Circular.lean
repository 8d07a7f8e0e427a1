import Mathlib

/-!
# Circular windows

`window f cap head n` lists the `n` cells of an array that start at `head` and wrap at `cap`.
A queue kept in an array is such a window: taking from the front moves the head by one
(`window_cons`), adding at the back writes the first free cell (`window_push`), and a write to
that cell disturbs no cell already in the window (`window_update`).
-/

namespace Circular

variable {α : Type*}

/-- The `n` cells of `f` from `head` on, indices taken modulo `cap`. -/
def window (f : ℕ → α) (cap head n : ℕ) : List α :=
  (List.range n).map fun i => f ((head + i) % cap)

@[simp] theorem length_window (f : ℕ → α) (cap head n : ℕ) :
    (window f cap head n).length = n := by
  simp [window]

@[simp] theorem window_zero (f : ℕ → α) (cap head : ℕ) : window f cap head 0 = [] := rfl

theorem window_congr {f g : ℕ → α} {cap head n : ℕ}
    (h : ∀ i < n, f ((head + i) % cap) = g ((head + i) % cap)) :
    window f cap head n = window g cap head n :=
  List.map_congr_left fun i hi => h i (List.mem_range.1 hi)

theorem window_succ (f : ℕ → α) (cap head n : ℕ) :
    window f cap head (n + 1) = window f cap head n ++ [f ((head + n) % cap)] := by
  simp [window, List.range_succ]

theorem window_mod_head (f : ℕ → α) (cap head n : ℕ) :
    window f cap (head % cap) n = window f cap head n := by
  simp only [window, Nat.mod_add_mod]

theorem window_cons (f : ℕ → α) (cap head n : ℕ) :
    window f cap head (n + 1) = f (head % cap) :: window f cap (head + 1) n := by
  simp only [window, List.range_succ_eq_map, List.map_cons, List.map_map, Nat.add_zero]
  congr 1
  apply List.map_congr_left
  intro i _
  show f ((head + (i + 1)) % cap) = f ((head + 1 + i) % cap)
  rw [Nat.add_assoc, Nat.add_comm 1 i]

theorem getElem?_window {f : ℕ → α} {cap head n i : ℕ} (hi : i < n) :
    (window f cap head n)[i]? = some (f ((head + i) % cap)) := by
  simp [window, hi]

/-- Two offsets closer than one revolution name different cells. -/
theorem slot_ne {cap head i n : ℕ} (hi : i < n) (hn : n < cap) :
    (head + i) % cap ≠ (head + n) % cap := by
  intro h
  have hmod : i % cap = n % cap := Nat.ModEq.add_left_cancel' head h
  rw [Nat.mod_eq_of_lt (hi.trans hn), Nat.mod_eq_of_lt hn] at hmod
  omega

/-- Writing the first cell behind the window leaves the window as it is. -/
theorem window_update {f : ℕ → α} {cap head n : ℕ} (hn : n < cap) (v : α) :
    window (Function.update f ((head + n) % cap) v) cap head n = window f cap head n :=
  window_congr fun _ hi => Function.update_of_ne (slot_ne hi hn) ..

/-- **Adding at the back.** Writing the first free cell and growing the window by one appends. -/
theorem window_push {f : ℕ → α} {cap head n : ℕ} (hn : n < cap) (v : α) :
    window (Function.update f ((head + n) % cap) v) cap head (n + 1) =
      window f cap head n ++ [v] := by
  rw [window_succ, window_update hn, Function.update_self]

end Circular
