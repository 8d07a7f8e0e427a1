import Mathlib

/-!
# Taking whole blocks up to a bound

A reader takes blocks off a list in order, as long as fewer than `n` symbols are taken. It ends
`Whole`, with no block left or exactly `n` symbols, or `Torn`, at a block that does not fit the
rest of the bound. The sizes of the blocks alone decide which (`Whole.cutsWhole`,
`Torn.not_cutsWhole`). `within` counts the blocks that lie whole in a window of the concatenation,
and is computed block by block (`within_cons`, `within_cons_of_lt`). `exists_cut` says where a cut
can fall.
-/

namespace Blocks

variable {α : Type*} {ds taken left : List (List α)} {d : List α} {n : ℕ}

/-- The blocks taken fit, and there is no block left or no room. -/
structure Whole (ds taken left : List (List α)) (n : ℕ) : Prop where
  split : ds = taken ++ left
  fits : taken.flatten.length ≤ n
  stop : left = [] ∨ taken.flatten.length = n

/-- The blocks taken leave room, but not for all of the next. -/
structure Torn (ds taken : List (List α)) (d : List α) (left : List (List α)) (n : ℕ) : Prop where
  split : ds = taken ++ d :: left
  room : taken.flatten.length < n
  short : n < taken.flatten.length + d.length

/-- All blocks fit, or the first few have exactly the length of the bound. -/
def CutsWhole (ds : List (List α)) (n : ℕ) : Prop :=
  ds.flatten.length ≤ n ∨ ∃ taken left, ds = taken ++ left ∧ taken.flatten.length = n

theorem length_flatten_cons (d : List α) (ds : List (List α)) :
    (d :: ds).flatten.length = d.length + ds.flatten.length := by
  rw [List.flatten_cons, List.length_append]

theorem length_flatten_append (taken left : List (List α)) :
    (taken ++ left).flatten.length = taken.flatten.length + left.flatten.length := by
  rw [List.flatten_append, List.length_append]

/-- A reader that stops at once. -/
theorem Whole.idle (h : ds = [] ∨ n = 0) : Whole ds [] ds n :=
  ⟨rfl, Nat.zero_le n, h.imp_right Eq.symm⟩

theorem Whole.cons (h : Whole ds taken left (n - d.length)) (hfit : d.length ≤ n) :
    Whole (d :: ds) (d :: taken) left n := by
  obtain ⟨rfl, hfits, hstop⟩ := h
  refine ⟨rfl, ?_, hstop.imp_right fun hfull => ?_⟩
  · rw [length_flatten_cons]
    omega
  · rw [length_flatten_cons]
    omega

theorem Torn.cons {d' : List α} (h : Torn ds taken d left (n - d'.length)) (hfit : d'.length ≤ n) :
    Torn (d' :: ds) (d' :: taken) d left n := by
  obtain ⟨rfl, hroom, hshort⟩ := h
  refine ⟨rfl, ?_, ?_⟩
  · rw [length_flatten_cons]
    omega
  · rw [length_flatten_cons]
    omega

theorem Whole.cutsWhole (h : Whole ds taken left n) : CutsWhole ds n := by
  obtain ⟨rfl, hfits, rfl | hfull⟩ := h
  · rw [List.append_nil]
    exact .inl hfits
  · exact .inr ⟨taken, left, rfl, hfull⟩

theorem Torn.not_cutsWhole (h : Torn ds taken d left n) : ¬ CutsWhole ds n := by
  obtain ⟨rfl, hroom, hshort⟩ := h
  rintro (hall | ⟨front, back, heq, hfull⟩)
  · rw [length_flatten_append, length_flatten_cons] at hall
    omega
  · -- The cut is in front of the torn block or behind it, never in it.
    rcases List.append_eq_append_iff.1 heq with ⟨front, rfl, hback⟩ | ⟨back, rfl, -⟩
    · cases front with
      | nil =>
        rw [List.append_nil] at hfull
        omega
      | cons x front =>
        obtain ⟨rfl, -⟩ := List.cons.inj hback
        rw [length_flatten_append, length_flatten_cons] at hfull
        omega
    · rw [length_flatten_append] at hroom
      omega

/-! ## Blocks inside a window -/

/-- The number of blocks that lie whole between the symbols `lo` and `hi` of the concatenation. -/
def within (ds : List (List α)) (lo hi : ℕ) : ℕ :=
  (List.range ds.length).countP fun i =>
    lo ≤ (ds.take i).flatten.length ∧ (ds.take (i + 1)).flatten.length ≤ hi

@[simp] theorem within_nil (lo hi : ℕ) : within ([] : List (List α)) lo hi = 0 := rfl

theorem within_cons {hi : ℕ} (h : d.length ≤ hi) (ds : List (List α)) (lo : ℕ) :
    within (d :: ds) lo hi =
      (if lo = 0 then 1 else 0) + within ds (lo - d.length) (hi - d.length) := by
  unfold within
  rw [List.length_cons, List.range_succ_eq_map, List.countP_cons, List.countP_map, Nat.add_comm]
  congr 1
  · simp [h]
  · refine List.countP_congr fun i _ => ?_
    simp only [Function.comp_apply, Nat.succ_eq_add_one, List.take_succ_cons, length_flatten_cons,
      decide_eq_true_eq]
    omega

/-- A first block that ends behind the window leaves it empty. -/
theorem within_cons_of_lt {hi : ℕ} (h : hi < d.length) (ds : List (List α)) (lo : ℕ) :
    within (d :: ds) lo hi = 0 := by
  rw [within, List.countP_eq_zero]
  intro i _
  rw [decide_eq_true_eq, List.take_succ_cons, length_flatten_cons]
  omega

/-! ## Cutting anywhere -/

/-- A cut through a concatenation is between two blocks or inside one. -/
theorem exists_cut {β : Type*} {f : β → List α} {xs : List β} {u v : List α}
    (h : u ++ v = xs.flatMap f) :
    (∃ front back, xs = front ++ back ∧ u = front.flatMap f ∧ v = back.flatMap f) ∨
      ∃ front x back a b, xs = front ++ x :: back ∧ f x = a ++ b ∧ a ≠ [] ∧ b ≠ [] ∧
        u = front.flatMap f ++ a ∧ v = b ++ back.flatMap f := by
  induction xs generalizing u with
  | nil =>
    obtain ⟨rfl, rfl⟩ := List.append_eq_nil_iff.1 h
    exact .inl ⟨[], [], rfl, rfl, rfl⟩
  | cons x xs ih =>
    rw [List.flatMap_cons] at h
    rcases List.append_eq_append_iff.1 h with ⟨b, hx, rfl⟩ | ⟨u', rfl, hxs⟩
    · by_cases hu : u = []
      · subst hu
        exact .inl ⟨[], x :: xs, rfl, rfl, by rw [List.flatMap_cons, hx, List.nil_append]⟩
      by_cases hb : b = []
      · subst hb
        exact .inl ⟨[x], xs, rfl, by simp [hx], rfl⟩
      · exact .inr ⟨[], x, xs, u, b, rfl, hx, hu, hb, rfl, rfl⟩
    · rcases ih hxs.symm with ⟨front, back, rfl, rfl, hv⟩ |
        ⟨front, y, back, a, b, rfl, hy, ha, hb, rfl, hv⟩
      · exact .inl ⟨x :: front, back, rfl, rfl, hv⟩
      · exact .inr ⟨x :: front, y, back, a, b, rfl, hy, ha, hb,
          by rw [List.flatMap_cons, List.append_assoc], hv⟩

end Blocks
