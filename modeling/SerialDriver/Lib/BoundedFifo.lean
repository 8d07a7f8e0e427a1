import Mathlib

/-!
# Bounded queues

A queue of at most `capacity` items. Adding keeps what fits and reports how much that was; taking
removes from the front, and moving takes from one queue what fits another.
-/

/-- A queue that never holds more than its capacity. -/
structure BoundedFifo (α : Type*) where
  capacity : ℕ
  items : List α
  length_le : items.length ≤ capacity

namespace BoundedFifo

variable {α : Type*}

@[ext] theorem ext {q q' : BoundedFifo α} (hcap : q.capacity = q'.capacity)
    (hitems : q.items = q'.items) : q = q' := by
  obtain ⟨_, _, _⟩ := q
  obtain ⟨_, _, _⟩ := q'
  subst hcap hitems
  rfl

def empty (capacity : ℕ) : BoundedFifo α := ⟨capacity, [], Nat.zero_le _⟩

def room (q : BoundedFifo α) : ℕ := q.capacity - q.items.length

/-- Add as many of `xs` as fit, and report their number. -/
def push (q : BoundedFifo α) (xs : List α) : ℕ × BoundedFifo α :=
  (min xs.length q.room, ⟨q.capacity, q.items ++ xs.take q.room, by
    have := q.length_le
    simp only [List.length_append, List.length_take, room]
    omega⟩)

/-- Keep no more than there was. -/
def shrink (q : BoundedFifo α) (items : List α) (h : items.length ≤ q.items.length) :
    BoundedFifo α :=
  ⟨q.capacity, items, h.trans q.length_le⟩

/-- Take up to `n` items from the front. -/
def pop (q : BoundedFifo α) (n : ℕ) : List α × BoundedFifo α :=
  (q.items.take n, q.shrink (q.items.drop n) (by simp))

/-- Move up to `n` items from the front of one queue to the back of another, as many as fit. -/
def move (source destination : BoundedFifo α) (n : ℕ) : BoundedFifo α × BoundedFifo α :=
  let (moved, source) := source.pop (min n destination.room)
  (source, (destination.push moved).2)

end BoundedFifo
