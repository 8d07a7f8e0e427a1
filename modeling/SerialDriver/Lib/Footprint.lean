import Mathlib

/-!
# Actions confined to a part of a state

A state is seen as a family of cells. An action is confined to a set of cells when it changes no
other cell, and what it returns and what it leaves in these cells depend on these cells alone.

Actions confined to disjoint sets commute: each returns the same in either order, and the two
orders leave the same state (`Confined.comm`).
-/

/-- A state seen as a family of cells that determines it. -/
structure Cells (σ ι : Type*) where
  Value : ι → Type*
  get : σ → ∀ i, Value i
  get_injective : Function.Injective get

namespace Cells

variable {σ ι α β : Type*} {c : Cells σ ι} {S T : Set ι} {s s' s'' : σ}

/-- The two states have the same values in the cells of `S`. -/
def AgreeOn (c : Cells σ ι) (S : Set ι) (s s' : σ) : Prop := ∀ i ∈ S, c.get s i = c.get s' i

theorem AgreeOn.refl (S : Set ι) (s : σ) : c.AgreeOn S s s := fun _ _ => rfl

theorem AgreeOn.symm (h : c.AgreeOn S s s') : c.AgreeOn S s' s := fun i hi => (h i hi).symm

theorem AgreeOn.trans (h : c.AgreeOn S s s') (h' : c.AgreeOn S s' s'') : c.AgreeOn S s s'' :=
  fun i hi => (h i hi).trans (h' i hi)

theorem AgreeOn.mono (h : c.AgreeOn T s s') (hST : S ⊆ T) : c.AgreeOn S s s' :=
  fun i hi => h i (hST hi)

/-- States that agree on a set and off it are equal. -/
theorem AgreeOn.eq (h : c.AgreeOn S s s') (h' : c.AgreeOn Sᶜ s s') : s = s' := by
  apply c.get_injective
  funext i
  by_cases hi : i ∈ S
  · exact h i hi
  · exact h' i hi

/-- An action that touches and consults the cells of `S` only. -/
structure Confined (c : Cells σ ι) (S : Set ι) (f : σ → α × σ) : Prop where
  frame : ∀ s, c.AgreeOn Sᶜ (f s).2 s
  out : ∀ {s s'}, c.AgreeOn S s s' → (f s).1 = (f s').1
  after : ∀ {s s'}, c.AgreeOn S s s' → c.AgreeOn S (f s).2 (f s').2

/-- An action may be seen as confined to more. -/
theorem Confined.mono {f : σ → α × σ} (hf : c.Confined S f) (hST : S ⊆ T) : c.Confined T f where
  frame s := (hf.frame s).mono (Set.compl_subset_compl.2 hST)
  out h := hf.out (h.mono hST)
  after {s s'} h i hi := by
    by_cases hiS : i ∈ S
    · exact hf.after (h.mono hST) i hiS
    · exact (hf.frame s i hiS).trans ((h i hi).trans (hf.frame s' i hiS).symm)

/-- An action that leaves the state alone. -/
theorem Confined.pure (a : α) : c.Confined S fun s => (a, s) where
  frame := AgreeOn.refl Sᶜ
  out := fun _ => rfl
  after := id

/-- What is returned may be processed further. -/
theorem Confined.map {f : σ → α × σ} (hf : c.Confined S f) (φ : α → β) :
    c.Confined S fun s => (φ (f s).1, (f s).2) where
  frame := hf.frame
  out := fun h => congrArg φ (hf.out h)
  after := hf.after

/-- An action may be chosen by what the one before it returned. -/
theorem Confined.bind {f : σ → α × σ} {g : α → σ → β × σ} (hf : c.Confined S f)
    (hg : ∀ a, c.Confined S (g a)) : c.Confined S fun s => g (f s).1 (f s).2 where
  frame s := ((hg _).frame _).trans (hf.frame s)
  out {s s'} h := by
    rw [hf.out h]
    exact (hg _).out (hf.after h)
  after {s s'} h := by
    rw [hf.out h]
    exact (hg _).after (hf.after h)

/-! ## States of two parts -/

/-- A family of values is a family of cells. -/
def pi (ι α : Type*) : Cells (ι → α) ι where
  Value _ := α
  get s := s
  get_injective := Function.injective_id

/-- The cells of two states side by side. -/
def prod {σ' ι' : Type*} (c : Cells σ ι) (c' : Cells σ' ι') : Cells (σ × σ') (ι ⊕ ι') where
  Value := Sum.elim c.Value c'.Value
  get s := Sum.rec (c.get s.1) (c'.get s.2)
  get_injective := by
    rintro ⟨s, t⟩ ⟨s', t'⟩ h
    have hs : s = s' := c.get_injective (funext fun i => congrFun h (.inl i))
    have ht : t = t' := c'.get_injective (funext fun i => congrFun h (.inr i))
    rw [hs, ht]

theorem agreeOn_prod {σ' ι' : Type*} {c' : Cells σ' ι'} {S : Set (ι ⊕ ι')} {s s' : σ × σ'} :
    (c.prod c').AgreeOn S s s' ↔
      c.AgreeOn {i | .inl i ∈ S} s.1 s'.1 ∧ c'.AgreeOn {i | .inr i ∈ S} s.2 s'.2 :=
  Sum.forall

/-- One entry of a family, and the cells of `S` of the state beside it. -/
def entry {κ : Type*} (k : κ) (S : Set ι) : Set (κ ⊕ ι) := {i | Sum.elim (· = k) (· ∈ S) i}

theorem entry_disjoint {κ : Type*} {k k' : κ} (hk : k ≠ k') (hST : Disjoint S T) :
    Disjoint (entry k S) (entry k' T) := by
  rw [Set.disjoint_left]
  rintro (i | i) hi hi'
  · exact hk (Eq.trans (Eq.symm hi) hi')
  · exact Set.disjoint_left.1 hST hi hi'

/-- An action on one entry of a family and on a confined part of the state beside it. -/
theorem Confined.atEntry {κ : Type*} [DecidableEq κ] {act : α → σ → (β × α) × σ}
    (h : ∀ a, c.Confined S (act a)) (k : κ) :
    ((pi κ α).prod c).Confined (entry k S) fun s =>
      ((act (s.1 k) s.2).1.1,
        (Function.update s.1 k (act (s.1 k) s.2).1.2, (act (s.1 k) s.2).2)) where
  frame s := by
    rw [agreeOn_prod]
    refine ⟨?_, (h _).frame s.2⟩
    intro i hi
    exact Function.update_of_ne hi ..
  out {s s'} hs := by
    rw [agreeOn_prod] at hs
    have hentry : s.1 k = s'.1 k := hs.1 k rfl
    show (act (s.1 k) s.2).1.1 = (act (s'.1 k) s'.2).1.1
    rw [hentry, (h _).out hs.2]
  after {s s'} hs := by
    rw [agreeOn_prod] at hs ⊢
    have hentry : s.1 k = s'.1 k := hs.1 k rfl
    rw [hentry]
    refine ⟨?_, (h _).after hs.2⟩
    rintro i rfl
    show Function.update s.1 i _ i = Function.update s'.1 i _ i
    rw [Function.update_self, Function.update_self]
    exact congrArg Prod.snd ((h _).out hs.2)

/-! ## Actions confined to disjoint sets -/

variable {f : σ → α × σ} {g : σ → β × σ}

/-- An action confined elsewhere makes no difference to what an action returns and leaves. -/
theorem Confined.undisturbed (hf : c.Confined S f) (hg : c.Confined T g) (hST : Disjoint S T)
    (s : σ) : (f (g s).2).1 = (f s).1 ∧ c.AgreeOn S (f (g s).2).2 (f s).2 := by
  have hsame : c.AgreeOn S (g s).2 s := (hg.frame s).mono hST.subset_compl_right
  exact ⟨hf.out hsame, hf.after hsame⟩

/-- **Actions confined to disjoint sets commute.** -/
theorem Confined.comm (hf : c.Confined S f) (hg : c.Confined T g) (hST : Disjoint S T) (s : σ) :
    (f (g s).2).2 = (g (f s).2).2 := by
  have hS : c.AgreeOn S (f (g s).2).2 (g (f s).2).2 :=
    (hf.undisturbed hg hST s).2.trans ((hg.frame (f s).2).mono hST.subset_compl_right).symm
  have hT : c.AgreeOn T (f (g s).2).2 (g (f s).2).2 :=
    ((hf.frame (g s).2).mono hST.subset_compl_left).trans
      (hg.undisturbed hf hST.symm s).2.symm
  refine hS.eq ?_
  intro i hi
  by_cases hiT : i ∈ T
  · exact hT i hiT
  · calc c.get (f (g s).2).2 i = c.get (g s).2 i := hf.frame (g s).2 i hi
      _ = c.get s i := hg.frame s i hiT
      _ = c.get (f s).2 i := (hf.frame s i hi).symm
      _ = c.get (g (f s).2).2 i := (hg.frame (f s).2 i hiT).symm

end Cells
