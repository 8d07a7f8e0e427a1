import SerialDriver.CheckedFraming
import SerialDriver.CheckedTransfer

/-!
# No function leaves its arrays

The versions with checked arrays are defined on all inputs, when each array is exactly as long as
the function may assume (`buffers_in_bounds`): the caller's capacity for `encodeSerialData` and
`ringReadFrame`, the smaller of that and the longest payload for `decodeSerialData`, and 256 bytes
for the local arrays.
-/

namespace Xr17v358

open Checked (encodeSerialData_filled decodeSerialData_filled decodeSerialData_defined
  ringReadFrame_filled transferRingBytes_checked stageRxBytesFromHw_checked
  flushTxQueueToHw_checked)

/-- The encoder writes nothing, or exactly as many bytes as its pre-scan counts. -/
theorem length_encodeSerialData (portIndex : Nat) (data : InBuffer) (ptr : Ptr)
    (frameCapacity : Nat) :
    encodeSerialData portIndex data ptr frameCapacity = [] ∨
      (encodeSerialData portIndex data ptr frameCapacity).length = encodedLength data.toList ∧
        encodedLength data.toList ≤ maxEncodedByteCount ∧
        encodedLength data.toList ≤ frameCapacity := by
  cases ptr with
  | null => exact .inl rfl
  | valid =>
    cases data with
    | null length => exact .inl rfl
    | bytes data =>
      rw [encodeSerialData_eq]
      split_ifs with hfits
      · obtain ⟨hvalid, hcapacity⟩ := hfits
        refine .inr ⟨?_, encodedLength_le hvalid, hcapacity⟩
        show _ = encodedLength data
        rw [encodedLength_eq]
        simp
      · exact .inl rfl

theorem ringReadFrame_defined (rb : Ring) (ptr : Ptr) (frameCapacity : Nat) (frameLength : Ptr) :
    ∃ out, ringReadFrame rb.1 ptr frameCapacity frameLength = some out := by
  by_cases hreject : ptr = .null ∨ frameLength = .null ∨ frameCapacity = 0
  · exact ⟨_, ringReadFrame_rejected rb.1 hreject⟩
  · obtain ⟨rb', hrun, -⟩ := ringReadFrameLoop_spec rb.2 frameCapacity rfl []
    exact ⟨_, (if_neg hreject).trans hrun⟩

/-- **No function leaves its arrays.** An access outside an array would make the function
undefined. -/
theorem buffers_in_bounds :
    (∀ (portIndex : Nat) (data : InBuffer) (ptr : Ptr) (frameCapacity : Nat)
        (frame : CheckedBuffer UInt8 frameCapacity),
      ∃ count frame', Checked.encodeSerialData portIndex data ptr frame frameCapacity =
          some (count, frame') ∧
        (count = 0 ∧ frame' = frame ∨
          count = encodedLength data.toList ∧ count ≤ 2050 ∧ count ≤ frameCapacity ∧
            frame'.stores = frame.stores ++ List.range count)) ∧
    (∀ (portIndex : Nat) (frame : InBuffer) (ptr : Ptr) (dataCapacity : Nat)
        (data : CheckedBuffer UInt8 (min dataCapacity 1024)) (dataLength : Ptr),
      ∃ out, Checked.decodeSerialData portIndex frame ptr data dataCapacity dataLength =
        some out) ∧
    (∀ (rb : Ring) (ptr : Ptr) (frameCapacity : Nat) (frame : CheckedBuffer UInt8 frameCapacity)
        (frameLength : Ptr),
      ∃ out, Checked.ringReadFrame rb.1 ptr frame frameCapacity frameLength = some out) ∧
    ∀ (d : Driver) (p : PortIndex) (m : DeviceMemory) (deviceBase : Nat)
        (bytes : CheckedBuffer UInt8 256),
      (∃ out, Checked.transferRingBytes bytes (d.ports p).txQueue.1 (d.ports p).txFifo.1
        fifoCapacity = some out) ∧
      (∃ out, Checked.transferRingBytes bytes (d.ports p).rxPending.1 (d.ports p).rxFifo.1
        fifoCapacity = some out) ∧
      (∃ out, Checked.stageRxBytesFromHw bytes m deviceBase p (d.ports p).rxFifo.1 = some out) ∧
      ∃ out, Checked.flushTxQueueToHw bytes m deviceBase p (d.ports p).txQueue.1 = some out := by
  refine ⟨?_, ?_, ?_, ?_⟩
  · intro portIndex data ptr frameCapacity frame
    refine ⟨_, _, encodeSerialData_filled portIndex data ptr frame le_rfl, ?_⟩
    rcases length_encodeSerialData portIndex data ptr frameCapacity with hnone |
      ⟨hlength, hmax, hcapacity⟩
    · rw [hnone]
      exact .inl ⟨rfl, frame.filled_nil⟩
    · refine .inr ⟨hlength, hlength.trans_le hmax, hlength.trans_le hcapacity, ?_⟩
      rw [CheckedBuffer.stores_filled]
  · intro portIndex frame ptr dataCapacity data dataLength
    obtain ⟨reply, hrun⟩ :=
      decodeSerialData_defined portIndex frame ⟨ptr, dataCapacity⟩ dataLength
    exact ⟨_, (decodeSerialData_filled portIndex frame ptr dataLength le_rfl data).trans
      (congrArg _ hrun)⟩
  · intro rb ptr frameCapacity frame frameLength
    obtain ⟨out, hrun⟩ := ringReadFrame_defined rb ptr frameCapacity frameLength
    exact ⟨_, (ringReadFrame_filled rb.1 ptr frameLength le_rfl frame).trans (congrArg _ hrun)⟩
  · intro d p m deviceBase bytes
    exact ⟨⟨_, transferRingBytes_checked bytes _ _ le_rfl⟩,
      ⟨_, transferRingBytes_checked bytes _ _ le_rfl⟩,
      ⟨_, stageRxBytesFromHw_checked bytes le_rfl m deviceBase p (d.ports p)⟩,
      ⟨_, flushTxQueueToHw_checked bytes le_rfl m deviceBase p (d.ports p)⟩⟩

/-- An escape as the last byte of the body: the byte it would take is not read. -/
example : (Checked.decodeSerialData 0 (.bytes [0x7E, 0x7D, 0x7E]) .valid
    (⟨fun _ => 0, []⟩ : CheckedBuffer UInt8 8) 8 .valid).map Prod.fst =
      some .errorInvalidFrame := by
  decide

end Xr17v358
