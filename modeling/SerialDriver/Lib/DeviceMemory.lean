import SerialDriver.Lib.Footprint

/-!
# Byte-addressed device memory

A device memory holds a byte for every address, and may have values lined up that the next reads of
an address return instead. Words are little-endian. `store` writes a run of bytes and `load` reads
one; a word access is a run of four (`write32_packWord`, `read32_eq`). A `plain` memory has nothing
lined up, and reading leaves it as it is (`load_plain`). The memory is a family of cells, one for
each address (`cells`): an access changes the cells it names and no others, and depends on nothing
else.
-/

/-- The stored bytes, and for each address the values its next reads return before they return the
stored byte. -/
structure DeviceMemory where
  mem : ℕ → UInt8
  upcoming : ℕ → List UInt8

instance : Inhabited DeviceMemory := ⟨fun _ => 0, fun _ => []⟩

/-- The little-endian word of four bytes. -/
def packWord (b₀ b₁ b₂ b₃ : UInt8) : UInt32 :=
  b₀.toUInt32 ||| (b₁.toUInt32 <<< 8) ||| (b₂.toUInt32 <<< 16) ||| (b₃.toUInt32 <<< 24)

/-- The bytes of a word, lowest first. -/
def unpackWord (w : UInt32) : List UInt8 :=
  [(w &&& 0xFF).toUInt8, ((w >>> 8) &&& 0xFF).toUInt8, ((w >>> 16) &&& 0xFF).toUInt8,
    ((w >>> 24) &&& 0xFF).toUInt8]

theorem toUInt8_mask (w : UInt32) : (w &&& 0xFF).toUInt8 = w.toUInt8 := by
  have hmask : ∀ i (h : i < 8), (255#8)[i] = true := by decide
  apply UInt8.toBitVec_inj.1
  ext i hi
  simp [hmask i hi]

theorem unpackWord_packWord (b₀ b₁ b₂ b₃ : UInt8) :
    unpackWord (packWord b₀ b₁ b₂ b₃) = [b₀, b₁, b₂, b₃] := by
  simp only [unpackWord, toUInt8_mask, List.cons.injEq, and_true]
  refine ⟨?_, ?_, ?_, ?_⟩ <;> apply UInt8.toBitVec_inj.1 <;> ext i hi <;> simp [packWord] <;>
    grind

namespace DeviceMemory

/-! ## Accesses -/

/-- The byte the next read of an address returns. -/
def peek (m : DeviceMemory) (addr : ℕ) : UInt8 := (m.upcoming addr).headD (m.mem addr)

def read8 (m : DeviceMemory) (addr : ℕ) : UInt8 × DeviceMemory :=
  (m.peek addr, { m with upcoming := Function.update m.upcoming addr (m.upcoming addr).tail })

def write8 (m : DeviceMemory) (addr : ℕ) (value : UInt8) : DeviceMemory :=
  { m with mem := Function.update m.mem addr value }

/-- Write a run of bytes. -/
def store (m : DeviceMemory) (addr : ℕ) : List UInt8 → DeviceMemory
  | [] => m
  | value :: data => store (m.write8 addr value) (addr + 1) data

/-- Read a run of bytes. -/
def load (m : DeviceMemory) (addr : ℕ) : ℕ → List UInt8 × DeviceMemory
  | 0 => ([], m)
  | n + 1 =>
    let (value, m) := m.read8 addr
    let (data, m) := load m (addr + 1) n
    (value :: data, m)

def write32 (m : DeviceMemory) (addr : ℕ) (word : UInt32) : DeviceMemory :=
  m.store addr (unpackWord word)

def read32 (m : DeviceMemory) (addr : ℕ) : UInt32 × DeviceMemory :=
  let (b₀, m) := m.read8 addr
  let (b₁, m) := m.read8 (addr + 1)
  let (b₂, m) := m.read8 (addr + 2)
  let (b₃, m) := m.read8 (addr + 3)
  (packWord b₀ b₁ b₂ b₃, m)

variable {m : DeviceMemory} {addr : ℕ}

theorem write32_packWord (m : DeviceMemory) (addr : ℕ) (b₀ b₁ b₂ b₃ : UInt8) :
    m.write32 addr (packWord b₀ b₁ b₂ b₃) = m.store addr [b₀, b₁, b₂, b₃] := by
  rw [write32, unpackWord_packWord]

theorem read32_eq (m : DeviceMemory) (addr : ℕ) :
    (unpackWord (m.read32 addr).1, (m.read32 addr).2) = m.load addr 4 := by
  show (unpackWord (packWord _ _ _ _), _) = _
  rw [unpackWord_packWord]
  rfl

theorem load_succ (m : DeviceMemory) (addr n : ℕ) :
    m.load addr (n + 1) =
      (m.peek addr :: ((m.read8 addr).2.load (addr + 1) n).1,
        ((m.read8 addr).2.load (addr + 1) n).2) := rfl

theorem load_add (m : DeviceMemory) (addr n n' : ℕ) :
    m.load addr (n + n') =
      ((m.load addr n).1 ++ ((m.load addr n).2.load (addr + n) n').1,
        ((m.load addr n).2.load (addr + n) n').2) := by
  induction n generalizing m addr with
  | zero => simp [load]
  | succ n ih =>
    rw [Nat.succ_add, load_succ, load_succ, ih, Nat.add_assoc addr 1 n, Nat.add_comm 1 n]
    rfl

/-! ## What a store changes -/

theorem upcoming_store (m : DeviceMemory) (addr : ℕ) (data : List UInt8) :
    (m.store addr data).upcoming = m.upcoming := by
  induction data generalizing m addr with
  | nil => rfl
  | cons value data ih => rw [store, ih]; rfl

theorem mem_store_of_not_mem {data : List UInt8} {x : ℕ}
    (h : x < addr ∨ addr + data.length ≤ x) : (m.store addr data).mem x = m.mem x := by
  induction data generalizing m addr with
  | nil => rfl
  | cons value data ih =>
    rw [List.length_cons] at h
    rw [store, ih (by omega)]
    exact Function.update_of_ne (by omega) ..

/-- What is stored does not depend on the reads lined up. -/
theorem mem_store_congr {m m' : DeviceMemory} (h : m.mem = m'.mem) (addr : ℕ)
    (data : List UInt8) : (m.store addr data).mem = (m'.store addr data).mem := by
  induction data generalizing m m' addr with
  | nil => exact h
  | cons value data ih =>
    apply ih
    show Function.update m.mem addr value = Function.update m'.mem addr value
    rw [h]

/-- The run written, seen through the memory. -/
theorem map_mem_store (m : DeviceMemory) (addr : ℕ) (data : List UInt8) :
    (List.range data.length).map (fun i => (m.store addr data).mem (addr + i)) = data := by
  induction data generalizing m addr with
  | nil => rfl
  | cons value data ih =>
    rw [List.length_cons, List.range_succ_eq_map, List.map_cons, List.map_map, store]
    congr 1
    · rw [mem_store_of_not_mem (.inl (Nat.lt_succ_self (addr + 0)))]
      exact Function.update_self ..
    · refine Eq.trans (List.map_congr_left fun i _ => ?_) (ih (m.write8 addr value) (addr + 1))
      show _ = DeviceMemory.mem _ (addr + 1 + i)
      rw [Nat.add_assoc, Nat.add_comm 1 i]
      rfl

/-- Byte by byte: what a store leaves at an address of the run. -/
theorem mem_store_of_lt (m : DeviceMemory) (addr : ℕ) {data : List UInt8} {i : ℕ}
    (h : i < data.length) : (m.store addr data).mem (addr + i) = data[i] := by
  have hrun := map_mem_store m addr data
  have hi : ((List.range data.length).map fun i => (m.store addr data).mem (addr + i))[i]? =
      data[i]? := by rw [hrun]
  simpa [h] using hi

/-! ## What a load sees and changes -/

theorem mem_load (m : DeviceMemory) (addr n : ℕ) : (m.load addr n).2.mem = m.mem := by
  induction n generalizing m addr with
  | zero => rfl
  | succ n ih => rw [load_succ]; exact ih ..

theorem upcoming_load_of_not_mem {n x : ℕ} (h : x < addr ∨ addr + n ≤ x) :
    (m.load addr n).2.upcoming x = m.upcoming x := by
  induction n generalizing m addr with
  | zero => rfl
  | succ n ih =>
    rw [load_succ]
    refine (ih (by omega)).trans ?_
    exact Function.update_of_ne (by omega) ..

theorem load_fst (m : DeviceMemory) (addr n : ℕ) :
    (m.load addr n).1 = (List.range n).map fun i => m.peek (addr + i) := by
  induction n generalizing m addr with
  | zero => rfl
  | succ n ih =>
    rw [load_succ, List.range_succ_eq_map, List.map_cons, List.map_map, ih]
    refine congrArg (m.peek addr :: ·) ?_
    apply List.map_congr_left
    intro i _
    show (m.read8 addr).2.peek (addr + 1 + i) = m.peek (addr + (i + 1))
    have hne : addr + (i + 1) ≠ addr := by omega
    rw [show addr + 1 + i = addr + (i + 1) by omega, peek, peek, read8]
    simp only [Function.update_of_ne hne]

/-! ## Memory without side effects -/

/-- A memory whose reads return the stored bytes. -/
def plain (mem : ℕ → UInt8) : DeviceMemory := ⟨mem, fun _ => []⟩

theorem eq_plain (h : m.upcoming = fun _ => []) : m = plain m.mem := by
  obtain ⟨mem, upcoming⟩ := m
  rw [show upcoming = fun _ => [] from h]
  rfl

variable (mem : ℕ → UInt8)

/-- Reading leaves it as it is. -/
@[simp] theorem read8_plain (addr : ℕ) : ((plain mem).read8 addr).2 = plain mem := by
  apply eq_plain
  show Function.update (fun _ => []) addr [] = fun _ => []
  exact Function.update_eq_self addr (fun _ => [])

@[simp] theorem load_plain (addr n : ℕ) :
    (plain mem).load addr n = ((List.range n).map fun i => mem (addr + i), plain mem) := by
  refine Prod.ext ?_ ?_
  · exact load_fst ..
  · induction n generalizing addr with
    | zero => rfl
    | succ n ih =>
      rw [load_succ, read8_plain]
      exact ih (addr + 1)

theorem store_plain (addr : ℕ) (data : List UInt8) :
    (plain mem).store addr data = plain ((plain mem).store addr data).mem :=
  eq_plain (upcoming_store ..)

/-! ## One cell for each address -/

/-- An address holds its stored byte and the values lined up for its next reads. -/
def cells : Cells DeviceMemory ℕ where
  Value _ := UInt8 × List UInt8
  get m x := (m.mem x, m.upcoming x)
  get_injective := by
    rintro ⟨mem, upcoming⟩ ⟨mem', upcoming'⟩ h
    have hmem : mem = mem' := funext fun x => congrArg Prod.fst (congrFun h x)
    have hupcoming : upcoming = upcoming' := funext fun x => congrArg Prod.snd (congrFun h x)
    rw [hmem, hupcoming]

variable {S : Set ℕ} {m' : DeviceMemory}

theorem agreeOn_iff :
    cells.AgreeOn S m m' ↔ ∀ x ∈ S, m.mem x = m'.mem x ∧ m.upcoming x = m'.upcoming x :=
  forall₂_congr fun _ _ => Prod.mk.injEq .. ▸ Iff.rfl

/-- The next read of an address in `S` returns the same value. -/
theorem peek_congr (h : cells.AgreeOn S m m') (haddr : addr ∈ S) : m.peek addr = m'.peek addr := by
  obtain ⟨hmem, hupcoming⟩ := agreeOn_iff.1 h addr haddr
  rw [peek, peek, hmem, hupcoming]

theorem agreeOn_read8 (h : cells.AgreeOn S m m') (addr : ℕ) :
    cells.AgreeOn S (m.read8 addr).2 (m'.read8 addr).2 := by
  rw [agreeOn_iff] at h ⊢
  intro x hx
  obtain ⟨hmem, hupcoming⟩ := h x hx
  refine ⟨hmem, ?_⟩
  by_cases haddr : x = addr
  · subst haddr
    simp [read8, hupcoming]
  · simp [read8, haddr, hupcoming]

theorem agreeOn_write8 (h : cells.AgreeOn S m m') (addr : ℕ) (value : UInt8) :
    cells.AgreeOn S (m.write8 addr value) (m'.write8 addr value) := by
  rw [agreeOn_iff] at h ⊢
  intro x hx
  obtain ⟨hmem, hupcoming⟩ := h x hx
  refine ⟨?_, hupcoming⟩
  by_cases haddr : x = addr
  · subst haddr
    simp [write8]
  · simp [write8, haddr, hmem]

theorem agreeOn_store (h : cells.AgreeOn S m m') (addr : ℕ) (data : List UInt8) :
    cells.AgreeOn S (m.store addr data) (m'.store addr data) := by
  induction data generalizing m m' addr with
  | nil => exact h
  | cons value data ih => exact ih (agreeOn_write8 h addr value) (addr + 1)

theorem agreeOn_load (h : cells.AgreeOn S m m') (addr n : ℕ) :
    cells.AgreeOn S (m.load addr n).2 (m'.load addr n).2 := by
  induction n generalizing m m' addr with
  | zero => exact h
  | succ n ih => exact ih (agreeOn_read8 h addr) (addr + 1)

theorem frame_read8 (haddr : addr ∈ S) : cells.AgreeOn Sᶜ (m.read8 addr).2 m := by
  rw [agreeOn_iff]
  intro x hx
  have hne : x ≠ addr := fun h => hx (h ▸ haddr)
  exact ⟨rfl, Function.update_of_ne hne ..⟩

theorem frame_write8 (haddr : addr ∈ S) (value : UInt8) :
    cells.AgreeOn Sᶜ (m.write8 addr value) m := by
  rw [agreeOn_iff]
  intro x hx
  have hne : x ≠ addr := fun h => hx (h ▸ haddr)
  exact ⟨Function.update_of_ne hne .., rfl⟩

theorem frame_store {data : List UInt8} (h : ∀ i < data.length, addr + i ∈ S) :
    cells.AgreeOn Sᶜ (m.store addr data) m := by
  rw [agreeOn_iff]
  intro x hx
  refine ⟨mem_store_of_not_mem ?_, congrFun (upcoming_store m addr data) x⟩
  by_contra hin
  exact hx ((show addr + (x - addr) = x by omega) ▸ h (x - addr) (by omega))

theorem frame_load {n : ℕ} (h : ∀ i < n, addr + i ∈ S) :
    cells.AgreeOn Sᶜ (m.load addr n).2 m := by
  rw [agreeOn_iff]
  intro x hx
  refine ⟨congrFun (mem_load m addr n) x, upcoming_load_of_not_mem ?_⟩
  by_contra hin
  exact hx ((show addr + (x - addr) = x by omega) ▸ h (x - addr) (by omega))

/-- An update of one byte. -/
theorem confined_update (haddr : addr ∈ S) (f : UInt8 → UInt8) {α : Type} (a : α) :
    cells.Confined S fun m : DeviceMemory =>
      (a, (m.read8 addr).2.write8 addr (f (m.read8 addr).1)) where
  frame _ := (frame_write8 haddr _).trans (frame_read8 haddr)
  out := fun _ => rfl
  after {m m'} h := by
    have hvalue : (m.read8 addr).1 = (m'.read8 addr).1 := peek_congr h haddr
    rw [hvalue]
    exact agreeOn_write8 (agreeOn_read8 h addr) addr _

/-- A run of bytes written. -/
theorem confined_store {data : List UInt8} (h : ∀ i < data.length, addr + i ∈ S) {α : Type}
    (a : α) : cells.Confined S fun m : DeviceMemory => (a, m.store addr data) where
  frame _ := frame_store h
  out := fun _ => rfl
  after := fun hm => agreeOn_store hm addr data

end DeviceMemory
