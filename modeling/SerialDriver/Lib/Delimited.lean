import Mathlib

/-!
# Delimited streams

A stream with at least two delimiters splits in one way only into leading noise, the body
between the first two delimiters, and the rest (`exists_frame`, `frame_unique`). In a stream of
frames with a body, a frame occurs nowhere but where it was put (`frame_occurs`).
-/

namespace Delimited

variable {α : Type*} {d : α}

theorem split_unique {n n' r r' : List α} (hn : d ∉ n) (hn' : d ∉ n')
    (h : n ++ d :: r = n' ++ d :: r') : n = n' ∧ r = r' := by
  induction n generalizing n' with
  | nil =>
    cases n' with
    | nil => exact ⟨rfl, (List.cons.inj h).2⟩
    | cons x n' => exact absurd (List.cons.inj h).1 fun hx => hn' (by simp [hx])
  | cons y n ih =>
    cases n' with
    | nil => exact absurd (List.cons.inj h).1 fun hy => hn (by simp [hy])
    | cons x n' =>
      obtain ⟨rfl, htail⟩ := List.cons.inj h
      obtain ⟨rfl, rfl⟩ := ih (fun hd => hn (by simp [hd])) (fun hd => hn' (by simp [hd])) htail
      exact ⟨rfl, rfl⟩

/-- The first two delimiters determine the split. -/
theorem frame_unique {n b r n' b' r' : List α} (hn : d ∉ n) (hb : d ∉ b) (hn' : d ∉ n')
    (hb' : d ∉ b') (h : n ++ d :: (b ++ d :: r) = n' ++ d :: (b' ++ d :: r')) :
    n = n' ∧ b = b' ∧ r = r' := by
  obtain ⟨hnoise, htail⟩ := split_unique hn hn' h
  exact ⟨hnoise, split_unique hb hb' htail⟩

/-- A body between two delimiters. -/
def frame (d : α) (b : List α) : List α := d :: (b ++ [d])

theorem frame_append (b s : List α) : frame d b ++ s = d :: (b ++ d :: s) := by
  rw [frame, List.cons_append, List.append_assoc, List.singleton_append]

/-- A stream of frames determines the bodies. -/
theorem frames_injective {bs bs' : List (List α)} (hbs : ∀ b ∈ bs, d ∉ b) (hbs' : ∀ b ∈ bs', d ∉ b)
    (h : bs.flatMap (frame d) = bs'.flatMap (frame d)) : bs = bs' := by
  induction bs generalizing bs' with
  | nil =>
    cases bs' with
    | nil => rfl
    | cons b' bs' => simp [frame] at h
  | cons b bs ih =>
    cases bs' with
    | nil => simp [frame] at h
    | cons b' bs' =>
      obtain ⟨hb, hrest⟩ := List.forall_mem_cons.1 hbs
      obtain ⟨hb', hrest'⟩ := List.forall_mem_cons.1 hbs'
      rw [List.flatMap_cons, List.flatMap_cons, frame_append, frame_append] at h
      obtain ⟨rfl, htail⟩ := split_unique hb hb' (List.cons.inj h).2
      rw [ih hrest hrest' htail]

/-- A closing delimiter is followed by an opening one, never by a body. -/
theorem not_frames_of_body {bs : List (List α)} {b s : List α} (hb : d ∉ b) (hne : b ≠ []) :
    bs.flatMap (frame d) ≠ b ++ s := by
  obtain ⟨x, b, rfl⟩ := List.exists_cons_of_ne_nil hne
  cases bs with
  | nil => simp
  | cons b' bs =>
    rw [List.flatMap_cons, frame_append]
    exact fun h => hb (List.mem_cons.2 (.inl (List.cons.inj h).1))

/-- **A frame occurs in a stream of frames as one of them.** -/
theorem frame_occurs {bs : List (List α)} (hbs : ∀ b ∈ bs, d ∉ b) {b u v : List α} (hb : d ∉ b)
    (hne : b ≠ []) (h : bs.flatMap (frame d) = u ++ (frame d b ++ v)) :
    ∃ front back, bs = front ++ b :: back ∧ u = front.flatMap (frame d) ∧
      v = back.flatMap (frame d) := by
  induction bs generalizing u with
  | nil =>
    rw [frame_append] at h
    exact absurd h.symm (by simp)
  | cons b₀ bs ih =>
    obtain ⟨hb₀, hrest⟩ := List.forall_mem_cons.1 hbs
    rw [List.flatMap_cons, frame_append] at h
    cases u with
    | nil =>
      rw [List.nil_append, frame_append] at h
      obtain ⟨rfl, rfl⟩ := split_unique hb₀ hb (List.cons.inj h).2
      exact ⟨[], bs, rfl, rfl, rfl⟩
    | cons x u =>
      rw [List.cons_append] at h
      obtain ⟨rfl, htail⟩ := List.cons.inj h
      by_cases hu : d ∈ u
      · -- The frame lies behind the first one.
        obtain ⟨n, u, rfl, hn⟩ := List.eq_append_cons_of_mem hu
        rw [List.append_assoc, List.cons_append] at htail
        obtain ⟨rfl, hbehind⟩ := split_unique hb₀ hn htail
        obtain ⟨front, back, rfl, rfl, rfl⟩ := ih hrest hbehind
        refine ⟨b₀ :: front, back, rfl, ?_, rfl⟩
        rw [List.flatMap_cons, frame_append]
      · rw [frame_append] at htail
        obtain ⟨-, htail⟩ := split_unique hb₀ hu htail
        exact absurd htail (not_frames_of_body hb hne)

variable [BEq α] [LawfulBEq α]

theorem count_split {n : List α} (hn : d ∉ n) (r : List α) :
    (n ++ d :: r).count d = r.count d + 1 := by
  rw [List.count_append, List.count_cons_self, List.count_eq_zero.2 hn, Nat.zero_add]

theorem count_frame {n b : List α} (hn : d ∉ n) (hb : d ∉ b) (r : List α) :
    (n ++ d :: (b ++ d :: r)).count d = r.count d + 2 := by
  rw [count_split hn, count_split hb]

theorem exists_split {s : List α} (h : 1 ≤ s.count d) : ∃ n r, s = n ++ d :: r ∧ d ∉ n :=
  List.eq_append_cons_of_mem (List.count_pos_iff.1 h)

theorem exists_frame {s : List α} (h : 2 ≤ s.count d) :
    ∃ n b r, s = n ++ d :: (b ++ d :: r) ∧ d ∉ n ∧ d ∉ b := by
  obtain ⟨n, s, rfl, hn⟩ := exists_split (d := d) (s := s) (by omega)
  rw [count_split hn] at h
  obtain ⟨b, r, rfl, hb⟩ := exists_split (d := d) (s := s) (by omega)
  exact ⟨n, b, r, rfl, hn, hb⟩

end Delimited
