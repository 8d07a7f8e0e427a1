import SerialDriver.Staging

/-!
# The FIFO window is byte exact

On a plain memory `writeTxFifo` puts its bytes at the front of the port's window and touches no
other byte, and `readRxFifo` returns the front of the window and changes nothing. The words that
each of them moves first are not seen: what is written is read back, wherever the two split their
counts into words and bytes (`fifoWindow_exact`).
-/

namespace Xr17v358

open DeviceMemory

variable (mem : ℕ → UInt8) (deviceBase : Nat) (p : PortIndex)

/-- The bytes after `data` is written to the window. -/
def memAfterWrite (data : List UInt8) : ℕ → UInt8 :=
  ((plain mem).store (fifoAddress deviceBase p) (data.take fifoCapacity)).mem

variable {data : List UInt8}

theorem memAfterWrite_of_lt {i : Nat} (h : i < data.length) (hi : i < fifoCapacity) :
    memAfterWrite mem deviceBase p data (fifoAddress deviceBase p + i) = data[i] := by
  have hlength : i < (data.take fifoCapacity).length := by
    rw [List.length_take]
    omega
  rw [memAfterWrite, mem_store_of_lt _ _ hlength, List.getElem_take]

theorem memAfterWrite_of_not_mem {x : ℕ} (h : x < fifoAddress deviceBase p ∨
    fifoAddress deviceBase p + min data.length fifoCapacity ≤ x) :
    memAfterWrite mem deviceBase p data x = mem x := by
  refine mem_store_of_not_mem ?_
  rw [List.length_take]
  omega

theorem writeTxFifo_plain (data : List UInt8) :
    writeTxFifo (plain mem) (some deviceBase) p (.bytes data) .valid =
      (.counted (min data.length fifoCapacity), plain (memAfterWrite mem deviceBase p data)) := by
  rw [writeTxFifo_spec, store_plain]
  rfl

theorem readRxFifo_plain (length : Nat) :
    readRxFifo (plain mem) (some deviceBase) p ⟨.valid, length⟩ .valid =
      (.returned ((List.range (min length (mem (registerAddress deviceBase p regRxlvl)).toNat)).map
        fun i => mem (fifoAddress deviceBase p + i)), plain mem) := by
  rw [readRxFifo_eq, read8_plain, load_plain]
  rfl

/-- What is read back is the front of what was written. -/
theorem map_memAfterWrite {n : Nat} (hn : n ≤ min data.length fifoCapacity) :
    ((List.range n).map fun i =>
      memAfterWrite mem deviceBase p data (fifoAddress deviceBase p + i)) = data.take n := by
  refine List.ext_getElem (by simp; omega) fun i hi _ => ?_
  rw [List.length_map, List.length_range] at hi
  rw [List.getElem_map, List.getElem_range, List.getElem_take,
    memAfterWrite_of_lt mem deviceBase p (by omega) (by omega)]

/-- **Writing and reading the FIFO window are byte exact.** The window starts at `0x100` behind the
port's registers, of which `0x09` is the receive level. -/
theorem fifoWindow_exact :
    let window := deviceBase + p.offset + 0x100
    let rxlvl := (mem (deviceBase + p.offset + 0x09)).toNat
    (∀ data : List UInt8, ∃ mem' : ℕ → UInt8,
      writeTxFifo (plain mem) (some deviceBase) p (.bytes data) .valid =
          (.counted (min data.length 256), plain mem') ∧
        (∀ i (h : i < data.length), i < 256 → mem' (window + i) = data[i]) ∧
        ∀ x, x < window ∨ window + min data.length 256 ≤ x → mem' x = mem x) ∧
    (∀ length : Nat, readRxFifo (plain mem) (some deviceBase) p ⟨.valid, length⟩ .valid =
      (.returned ((List.range (min length rxlvl)).map fun i => mem (window + i)), plain mem)) ∧
    ∀ (data : List UInt8) (length : Nat), min length rxlvl ≤ min data.length 256 →
      (readRxFifo (writeTxFifo (plain mem) (some deviceBase) p (.bytes data) .valid).2
          (some deviceBase) p ⟨.valid, length⟩ .valid).1 =
        .returned (data.take (min (min length rxlvl) (min data.length 256))) := by
  intro window rxlvl
  refine ⟨fun data => ?_, readRxFifo_plain mem deviceBase p, fun data length hle => ?_⟩
  · exact ⟨_, writeTxFifo_plain mem deviceBase p data,
      fun i h hi => memAfterWrite_of_lt mem deviceBase p h hi,
      fun x hx => memAfterWrite_of_not_mem mem deviceBase p hx⟩
  · -- The level register lies in front of the window, and keeps its value.
    have hlevel : memAfterWrite mem deviceBase p data (registerAddress deviceBase p regRxlvl) =
        mem (registerAddress deviceBase p regRxlvl) := by
      refine memAfterWrite_of_not_mem mem deviceBase p (.inl ?_)
      unfold registerAddress fifoAddress regRxlvl fifoRegisterOffset
      omega
    rw [writeTxFifo_plain, readRxFifo_plain, hlevel, Nat.min_eq_left hle]
    exact congrArg Reply.returned (map_memAfterWrite mem deviceBase p hle)

/-- Six bytes written as a word and two bytes; seven read, as a word and three bytes, when the level
register says five. -/
theorem fifoWindow_exact_residues :
    let m := plain fun x => if x = 0x09 then 5 else 0
    (readRxFifo (writeTxFifo m (some 0) 0 (.bytes [1, 2, 3, 4, 5, 6]) .valid).2 (some 0) 0
      ⟨.valid, 7⟩ .valid).1 = .returned [1, 2, 3, 4, 5] :=
  (fifoWindow_exact (fun x => if x = 0x09 then 5 else 0) 0 0).2.2 [1, 2, 3, 4, 5, 6] 7 (by decide)

end Xr17v358
