import Mathlib

/-!
# Checked buffers

An array of fixed size whose accesses are defined only inside it, and which remembers the indices
stored to. A loop that stores `data` from index 0 upwards turns a buffer `b` into `b.filled data`
(`store_filled`), and a loop that runs over `data` again reads it back (`load_filled`). So such a
loop is defined as long as `data` fits, and the list `data` says all about what it stored.
-/

/-- The cells of an array, and the indices stored to so far. -/
structure CheckedBuffer (α : Type*) (n : ℕ) where
  cells : Fin n → α
  stores : List ℕ

namespace CheckedBuffer

variable {α : Type*} {n : ℕ} (b : CheckedBuffer α n)

def load (i : ℕ) : Option α := if h : i < n then some (b.cells ⟨i, h⟩) else none

def store (i : ℕ) (value : α) : Option (CheckedBuffer α n) :=
  if h : i < n then some ⟨Function.update b.cells ⟨i, h⟩ value, b.stores ++ [i]⟩ else none

/-- The buffer with `data` stored at its front, byte by byte. -/
def filled (data : List α) : CheckedBuffer α n :=
  ⟨fun i => data[i.1]?.getD (b.cells i), b.stores ++ List.range data.length⟩

@[simp] theorem filled_nil : b.filled [] = b := by
  obtain ⟨cells, stores⟩ := b
  simp [filled]

theorem stores_filled (data : List α) :
    (b.filled data).stores = b.stores ++ List.range data.length := rfl

/-- Storing behind `data` extends it. -/
theorem store_filled {data : List α} (h : data.length < n) (value : α) :
    (b.filled data).store data.length value = some (b.filled (data ++ [value])) := by
  have hcells : Function.update (b.filled data).cells ⟨data.length, h⟩ value =
      (b.filled (data ++ [value])).cells := by
    funext i
    by_cases hi : i.1 = data.length
    · obtain rfl : i = ⟨data.length, h⟩ := Fin.ext hi
      simp [filled]
    · have hne : i ≠ ⟨data.length, h⟩ := fun he => hi (congrArg Fin.val he)
      rw [Function.update_of_ne hne]
      show data[i.1]?.getD (b.cells i) = (data ++ [value])[i.1]?.getD (b.cells i)
      rcases lt_or_gt_of_ne hi with hlt | hgt
      · rw [List.getElem?_append_left hlt]
      · rw [List.getElem?_eq_none hgt.le, List.getElem?_eq_none (by simpa using hgt)]
  rw [store, dif_pos h, hcells, stores_filled, List.append_assoc, ← List.range_succ]
  rw [filled, List.length_append, List.length_singleton]

theorem store_filled_at {data : List α} {i : ℕ} (hi : data.length = i) (h : i < n) (value : α) :
    (b.filled data).store i value = some (b.filled (data ++ [value])) := by
  subst hi
  exact b.store_filled h value

/-- What was stored is read back. -/
theorem load_filled {data : List α} {i : ℕ} (hi : i < data.length) (hn : i < n) :
    (b.filled data).load i = some data[i] := by
  rw [load, dif_pos hn, filled]
  simp [hi]

theorem load_filled_append {passed : List α} {i : ℕ} (hi : passed.length = i) (h : i < n)
    (value : α) (rest : List α) :
    (b.filled (passed ++ value :: rest)).load i = some value := by
  subst hi
  rw [load_filled b (by simp) h]
  simp

end CheckedBuffer
