import SerialDriver.Lib.DeviceMemory

/-!
# `ghs_interface.c`

`uart0_enable_tx` looks up the mapped registers of UART 0 and sets a bit of its control register.
What the operating system provides for it, and the offset and the bit of the register, come from
headers outside this repository and are parameters. A `uintptr_t` has `w` bits and wraps around.

* `uart0EnableTx_outcome` — it succeeds exactly when both lookups do and the register lies in the
  mapped region; then the bits of the mask are set in that word, and nothing else changes. When it
  fails nothing changes.
-/

namespace Xr17v358

variable {w : ℕ} {MemoryRegion : Type}

/-- The memory-region functions of the operating system: the status, and what is stored. -/
structure MemoryRegions (w : ℕ) (MemoryRegion : Type) where
  getMemoryRegion : String → Int × MemoryRegion
  getMemoryRegionExtendedAddresses : MemoryRegion → Int × BitVec w × BitVec w
  getMappedPhysicalMemoryRegion : MemoryRegion → Int × MemoryRegion

/-- `OK`. -/
def ghsOk : Int := 0

/-- `mmio_set_bits32`. -/
def mmioSetBits32 (m : DeviceMemory) (regAddr : Nat) (mask : UInt32) : Int × DeviceMemory :=
  let (v, m) := m.read32 regAddr
  (ghsOk, m.write32 regAddr (v ||| mask))

/-- `uart0_enable_tx`. -/
def uart0EnableTx (os : MemoryRegions w MemoryRegion) (uartCrOffset : BitVec w)
    (uartCrTxEnableBit : UInt32) (m : DeviceMemory) : Int × DeviceMemory :=
  let (status, virtualMr) := os.getMemoryRegion "uart0_regs"
  if status ≠ ghsOk then (status, m)
  else
    let (status, vfirst, vlast) := os.getMemoryRegionExtendedAddresses virtualMr
    if status ≠ ghsOk then (status, m)
    else
      -- The physical window is looked up and not used.
      let (status, physicalMr) := os.getMappedPhysicalMemoryRegion virtualMr
      let _ := if status = ghsOk then (os.getMemoryRegionExtendedAddresses physicalMr).2 else (0, 0)
      if vlast < vfirst then (-1, m)
      else
        let vsize := vlast - vfirst + 1
        if uartCrOffset + 4 > vsize then (-2, m)
        else mmioSetBits32 m (vfirst + uartCrOffset).toNat uartCrTxEnableBit

/-- The word at an offset lies in the region, whose size a `size_t` can hold. -/
structure InRegion (vfirst vlast offset : BitVec w) : Prop where
  fits : vfirst.toNat + offset.toNat + 3 ≤ vlast.toNat
  sized : vlast.toNat - vfirst.toNat + 1 < 2 ^ w

/-- **The two checks are exact.** -/
theorem inRegion_iff {vfirst vlast offset : BitVec w} (hoffset : offset.toNat + 4 < 2 ^ w) :
    (¬ vlast < vfirst ∧ ¬ offset + 4 > vlast - vfirst + 1) ↔ InRegion vfirst vlast offset := by
  have hlast := vlast.isLt
  have hfour : (4 : BitVec w).toNat = 4 := by
    show (BitVec.ofNat w 4).toNat = 4
    rw [BitVec.toNat_ofNat, Nat.mod_eq_of_lt (by omega)]
  have hone : (1 : BitVec w).toNat = 1 := by
    show (BitVec.ofNat w 1).toNat = 1
    rw [BitVec.toNat_ofNat, Nat.mod_eq_of_lt (by omega)]
  have hend : (offset + 4).toNat = offset.toNat + 4 := by
    rw [BitVec.toNat_add, hfour, Nat.mod_eq_of_lt hoffset]
  have hsize : vfirst.toNat ≤ vlast.toNat → (vlast - vfirst + 1).toNat =
      (vlast.toNat - vfirst.toNat + 1) % 2 ^ w := fun h => by
    rw [BitVec.toNat_add, BitVec.toNat_sub_of_le (BitVec.le_def.2 h), hone]
  rw [gt_iff_lt, BitVec.lt_def, BitVec.lt_def, not_lt, not_lt, hend]
  constructor
  · rintro ⟨horder, hroom⟩
    rw [hsize horder] at hroom
    -- A region of the whole address space has size zero and no room.
    have hsized : vlast.toNat - vfirst.toNat + 1 < 2 ^ w := by
      by_contra hfull
      have hwhole : vlast.toNat - vfirst.toNat + 1 = 2 ^ w := by omega
      rw [hwhole, Nat.mod_self] at hroom
      omega
    rw [Nat.mod_eq_of_lt hsized] at hroom
    exact ⟨by omega, hsized⟩
  · rintro ⟨hfits, hsized⟩
    have horder : vfirst.toNat ≤ vlast.toNat := by omega
    rw [hsize horder, Nat.mod_eq_of_lt hsized]
    exact ⟨horder, by omega⟩

/-- A word read, changed and written back. -/
theorem mmioSetBits32_changes (m : DeviceMemory) (regAddr : Nat) (mask : UInt32) :
    (List.range 4).map (fun i => (mmioSetBits32 m regAddr mask).2.mem (regAddr + i)) =
        unpackWord ((m.read32 regAddr).1 ||| mask) ∧
      ∀ x, x < regAddr ∨ regAddr + 4 ≤ x → (mmioSetBits32 m regAddr mask).2.mem x = m.mem x := by
  have hread : (m.read32 regAddr).2 = (m.load regAddr 4).2 :=
    congrArg Prod.snd (DeviceMemory.read32_eq m regAddr)
  refine ⟨DeviceMemory.map_mem_store (m.read32 regAddr).2 regAddr _, ?_⟩
  intro x hx
  show ((m.read32 regAddr).2.store regAddr (unpackWord _)).mem x = m.mem x
  rw [DeviceMemory.mem_store_of_not_mem hx, hread, DeviceMemory.mem_load]

/-- **The transmit bit is set in the mapped register, or nothing changes.** Whatever the operating
system returns, if the register's offset leaves room for its word: the call succeeds exactly when
both lookups do, the word lies in the region, and the region's size is representable: a region of the
whole address space is refused. Then that word is what was read there with the bits of the mask set,
and every other byte is as it was. When the call fails the memory is as it was. -/
theorem uart0EnableTx_outcome (os : MemoryRegions w MemoryRegion) {uartCrOffset : BitVec w}
    (hoffset : uartCrOffset.toNat + 4 < 2 ^ w) (uartCrTxEnableBit : UInt32) (m : DeviceMemory) :
    let region := os.getMemoryRegion "uart0_regs"
    let window := os.getMemoryRegionExtendedAddresses region.2
    let regAddr := window.2.1.toNat + uartCrOffset.toNat
    let out := uart0EnableTx os uartCrOffset uartCrTxEnableBit m
    (out.1 = ghsOk ↔
        region.1 = ghsOk ∧ window.1 = ghsOk ∧ InRegion window.2.1 window.2.2 uartCrOffset) ∧
      (out.1 = ghsOk →
        (List.range 4).map (fun i => out.2.mem (regAddr + i)) =
            unpackWord ((m.read32 regAddr).1 ||| uartCrTxEnableBit) ∧
          ∀ x, x < regAddr ∨ regAddr + 4 ≤ x → out.2.mem x = m.mem x) ∧
      (out.1 ≠ ghsOk → out.2 = m) := by
  intro region window regAddr out
  have hout : out =
      if region.1 ≠ ghsOk then (region.1, m)
      else if window.1 ≠ ghsOk then (window.1, m)
      else if window.2.2 < window.2.1 then (-1, m)
      else if uartCrOffset + 4 > window.2.2 - window.2.1 + 1 then (-2, m)
      else mmioSetBits32 m (window.2.1 + uartCrOffset).toNat uartCrTxEnableBit := rfl
  by_cases hregion : region.1 = ghsOk
  · by_cases hwindow : window.1 = ghsOk
    · rw [if_neg (not_not.2 hregion), if_neg (not_not.2 hwindow)] at hout
      by_cases hin : InRegion window.2.1 window.2.2 uartCrOffset
      · -- The register is in the region, so its address does not wrap.
        have hlast := window.2.2.isLt
        have hfits := hin.fits
        have haddr : (window.2.1 + uartCrOffset).toNat = regAddr := by
          rw [BitVec.toNat_add, Nat.mod_eq_of_lt (by omega)]
        obtain ⟨horder, hroom⟩ := (inRegion_iff hoffset).2 hin
        rw [if_neg horder, if_neg hroom, haddr] at hout
        rw [hout]
        exact ⟨⟨fun _ => ⟨hregion, hwindow, hin⟩, fun _ => rfl⟩,
          fun _ => mmioSetBits32_changes m regAddr uartCrTxEnableBit, fun h => absurd rfl h⟩
      · have hfail : out = (-1, m) ∨ out = (-2, m) := by
          rw [hout]
          split_ifs with horder hroom
          · exact .inl rfl
          · exact .inr rfl
          · exact absurd ((inRegion_iff hoffset).1 ⟨horder, hroom⟩) hin
        have hstatus : out.1 ≠ ghsOk := by
          rcases hfail with h | h
          · exact h ▸ (by decide : (-1 : Int) ≠ ghsOk)
          · exact h ▸ (by decide : (-2 : Int) ≠ ghsOk)
        have hmemory : out.2 = m := by
          rcases hfail with h | h <;> rw [h]
        exact ⟨⟨fun h => absurd h hstatus, fun h => absurd h.2.2 hin⟩, fun h => absurd h hstatus,
          fun _ => hmemory⟩
    · rw [if_neg (not_not.2 hregion), if_pos hwindow] at hout
      rw [hout]
      exact ⟨⟨fun h => absurd h hwindow, fun h => absurd h.2.1 hwindow⟩,
        fun h => absurd h hwindow, fun _ => rfl⟩
  · rw [if_pos hregion] at hout
    rw [hout]
    exact ⟨⟨fun h => absurd h hregion, fun h => absurd h.1 hregion⟩, fun h => absurd h hregion,
      fun _ => rfl⟩

/-- A system that maps the registers at `0x4000_0000`. -/
def mappedRegions : MemoryRegions 32 Unit where
  getMemoryRegion _ := (0, ())
  getMemoryRegionExtendedAddresses _ := (0, 0x40000000, 0x40000FFF)
  getMappedPhysicalMemoryRegion _ := (0, ())

theorem uart0EnableTx_outcome_mapped :
    (uart0EnableTx mappedRegions 0x30 0x100 default).1 = ghsOk ∧
      (uart0EnableTx mappedRegions 0x30 0x100 default).2.mem 0x40000034 = 0 := by
  obtain ⟨hsucceeds, hchanges, -⟩ :=
    @uart0EnableTx_outcome _ _ mappedRegions 0x30 (by decide) 0x100 default
  have hok : (uart0EnableTx mappedRegions 0x30 0x100 default).1 = ghsOk :=
    hsucceeds.2 ⟨rfl, rfl, ⟨by decide, by decide⟩⟩
  exact ⟨hok, (hchanges hok).2 0x40000034 (by decide)⟩

end Xr17v358
