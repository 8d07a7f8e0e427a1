import Mathlib

/-!
# Byte stuffing

A stuffing code hides the reserved symbols of a message: each is replaced by the escape symbol
and its flipped form, every other symbol is copied. A symbol reserved besides the escape symbol
then never occurs in a stuffed message (`not_mem_stuff`), so it can delimit messages.

`unstuff` accepts exactly the stuffed messages (`unstuff_eq_some_iff`): it rejects a bare
reserved symbol, an escape at the end, and an escape before anything but a flipped reserved
symbol.
-/

/-- A stuffing code: flipping a reserved symbol gives a free one, and flipping twice is the
identity. -/
structure Stuffing (α : Type*) where
  /-- The symbol announcing a flipped one. -/
  esc : α
  /-- The symbols a stuffed message may not contain as themselves. -/
  reserved : α → Bool
  flip : α → α
  reserved_esc : reserved esc = true
  flip_flip : ∀ x, flip (flip x) = x
  reserved_flip : ∀ x, reserved x = true → reserved (flip x) = false

namespace Stuffing

variable {α : Type*} (c : Stuffing α)

/-- The stuffed form of one symbol. -/
def stuffSymbol (x : α) : List α := if c.reserved x then [c.esc, c.flip x] else [x]

def stuff (data : List α) : List α := data.flatMap c.stuffSymbol

@[simp] theorem stuff_nil : c.stuff [] = [] := rfl

@[simp] theorem stuff_cons (x : α) (data : List α) :
    c.stuff (x :: data) = c.stuffSymbol x ++ c.stuff data := rfl

theorem length_stuff (data : List α) :
    (c.stuff data).length = data.length + data.countP c.reserved := by
  induction data with
  | nil => rfl
  | cons x data ih =>
    by_cases hx : c.reserved x <;>
      simp only [stuff_cons, stuffSymbol, hx, List.length_append, ih, List.length_cons,
        List.length_nil, List.countP_cons, if_true, if_false, Bool.false_eq_true] <;> omega

theorem le_length_stuff (data : List α) : data.length ≤ (c.stuff data).length := by
  rw [length_stuff]; omega

theorem stuff_ne_nil {data : List α} (h : data ≠ []) : c.stuff data ≠ [] :=
  List.ne_nil_of_length_pos ((List.length_pos_iff.2 h).trans_le (c.le_length_stuff data))

theorem length_stuff_le (data : List α) : (c.stuff data).length ≤ 2 * data.length := by
  have := List.countP_le_length (p := c.reserved) (l := data)
  rw [length_stuff]
  omega

/-- What a symbol is stuffed as tells the symbol, whatever follows. -/
theorem stuffSymbol_append_inj {x y : α} {s t : List α}
    (h : c.stuffSymbol x ++ s = c.stuffSymbol y ++ t) : x = y ∧ s = t := by
  unfold stuffSymbol at h
  split_ifs at h with hx hy hy
  · obtain ⟨hflip, hrest⟩ : c.flip x = c.flip y ∧ s = t := by simpa using h
    exact ⟨by rw [← c.flip_flip x, hflip, c.flip_flip], hrest⟩
  · obtain ⟨rfl, -⟩ := List.cons.inj h
    exact absurd c.reserved_esc hy
  · obtain ⟨rfl, -⟩ := List.cons.inj h
    exact absurd c.reserved_esc hx
  · exact List.cons.inj h

/-- A front of a stuffed message that is one itself is a stuffed front. -/
theorem prefix_of_stuff_prefix {x d : List α} (h : c.stuff x <+: c.stuff d) : x <+: d := by
  induction x generalizing d with
  | nil => exact List.nil_prefix
  | cons a x ih =>
    cases d with
    | nil =>
      have hnil := List.prefix_nil.1 h
      exact absurd hnil (c.stuff_ne_nil (List.cons_ne_nil a x))
    | cons b d =>
      obtain ⟨rest, hrest⟩ := h
      rw [stuff_cons, stuff_cons, List.append_assoc] at hrest
      obtain ⟨rfl, htail⟩ := c.stuffSymbol_append_inj hrest
      exact List.cons_prefix_cons.2 ⟨rfl, ih ⟨rest, htail⟩⟩

/-- A reserved symbol other than the escape symbol does not occur in a stuffed message. -/
theorem not_mem_stuff {d : α} (hd : c.reserved d = true) (hne : d ≠ c.esc) (data : List α) :
    d ∉ c.stuff data := by
  intro hmem
  obtain ⟨x, -, hx⟩ := List.mem_flatMap.1 hmem
  unfold stuffSymbol at hx
  split_ifs at hx with hr
  · rcases List.mem_pair.1 hx with rfl | rfl
    · exact hne rfl
    · rw [c.reserved_flip x hr] at hd
      exact absurd hd (by simp)
  · rw [List.mem_singleton.1 hx] at hd
    exact hr hd

variable [DecidableEq α]

/-- Undo the stuffing, or reject. -/
def unstuff : List α → Option (List α)
  | [] => some []
  | [x] => if c.reserved x then none else some [x]
  | x :: y :: rest =>
    if x = c.esc then
      if c.reserved (c.flip y) then (unstuff rest).map (c.flip y :: ·) else none
    else if c.reserved x then none else (unstuff (y :: rest)).map (x :: ·)

theorem unstuff_cons_of_free {x : α} (hx : c.reserved x = false) (s : List α) :
    c.unstuff (x :: s) = (c.unstuff s).map (x :: ·) := by
  have hne : x ≠ c.esc := by
    rintro rfl
    rw [c.reserved_esc] at hx
    exact absurd hx (by simp)
  cases s <;> simp [unstuff, hx, hne]

theorem unstuff_esc {y : α} (hy : c.reserved (c.flip y) = true) (s : List α) :
    c.unstuff (c.esc :: y :: s) = (c.unstuff s).map (c.flip y :: ·) := by
  simp [unstuff, hy]

@[simp] theorem unstuff_stuff (data : List α) : c.unstuff (c.stuff data) = some data := by
  induction data with
  | nil => rfl
  | cons x data ih =>
    rw [stuff_cons, stuffSymbol]
    split_ifs with hx
    · have hf : c.reserved (c.flip (c.flip x)) = true := by rw [c.flip_flip]; exact hx
      simp [unstuff_esc c hf, ih, c.flip_flip]
    · simp [unstuff_cons_of_free c (Bool.eq_false_of_not_eq_true hx), ih]

theorem stuff_of_unstuff {s data : List α} (h : c.unstuff s = some data) : c.stuff data = s := by
  induction s using unstuff.induct c generalizing data with
  | case1 => simp_all [unstuff]
  | case2 x hx => simp [unstuff, hx] at h
  | case3 x hx =>
    obtain rfl : [x] = data := by simpa [unstuff, hx] using h
    simp [stuffSymbol, hx]
  | case4 y rest hy ih =>
    rw [unstuff_esc c hy] at h
    obtain ⟨tail, htail, rfl⟩ := Option.map_eq_some_iff.1 h
    simp [stuffSymbol, hy, c.flip_flip, ih htail]
  | case5 y rest hy => simp [unstuff, hy] at h
  | case6 x y rest hne hx => simp [unstuff, hne, hx] at h
  | case7 x y rest hne hx ih =>
    rw [unstuff_cons_of_free c (Bool.eq_false_of_not_eq_true hx)] at h
    obtain ⟨tail, htail, rfl⟩ := Option.map_eq_some_iff.1 h
    simp [stuffSymbol, hx, ih htail]

/-- **Exactly the stuffed messages are accepted.** -/
theorem unstuff_eq_some_iff {s data : List α} : c.unstuff s = some data ↔ s = c.stuff data :=
  ⟨fun h => (c.stuff_of_unstuff h).symm, fun h => by rw [h, unstuff_stuff]⟩

theorem stuff_injective : Function.Injective c.stuff := fun x y h => by
  have hx := c.unstuff_stuff x
  rw [h, unstuff_stuff] at hx
  exact (Option.some.inj hx).symm

end Stuffing
