import SerialDriver.Stream
import SerialDriver.Ring

/-!
# Moving one frame between rings

`Ring.transferFrame` takes the first frame off the source and then writes it to the destination. It
succeeds exactly when the source holds a complete frame that fits the frame buffer and the
destination's room (`transferFrame_ok_iff`). What an attempt that fails has taken off the source is
lost (`transferFrame_consumes`), so the transfer is atomic only when it succeeds or the source is
empty (`transferFrame_atomic_iff`).
-/

namespace Xr17v358

open Delimited

/-! ## Frames -/

/-- The frame around a body. -/
def frameOf (body : List UInt8) : List UInt8 := frameDelimiter :: (body ++ [frameDelimiter])

@[simp] theorem length_frameOf (body : List UInt8) : (frameOf body).length = body.length + 2 := by
  simp [frameOf]

theorem frameOf_append (body s : List UInt8) :
    frameOf body ++ s = frameDelimiter :: (body ++ frameDelimiter :: s) := by
  simp [frameOf]

/-- The first complete frame of `s` is the one around `body`, and `rest` follows it. -/
def FirstFrame (s body rest : List UInt8) : Prop :=
  ∃ noise, s = noise ++ (frameOf body ++ rest) ∧ frameDelimiter ∉ noise ∧ frameDelimiter ∉ body

variable {s body rest : List UInt8}

theorem exists_firstFrame (h : 2 ≤ s.count frameDelimiter) :
    ∃ body rest, FirstFrame s body rest := by
  obtain ⟨noise, body, rest, rfl, hnoise, hbody⟩ := exists_frame h
  exact ⟨body, rest, noise, by rw [frameOf_append], hnoise, hbody⟩

theorem FirstFrame.unique {body' rest' : List UInt8} (h : FirstFrame s body rest)
    (h' : FirstFrame s body' rest') : body = body' ∧ rest = rest' := by
  obtain ⟨noise, rfl, hnoise, hbody⟩ := h
  obtain ⟨noise', heq, hnoise', hbody'⟩ := h'
  rw [frameOf_append, frameOf_append] at heq
  exact (frame_unique hnoise hbody hnoise' hbody' heq).2

/-! ## Attempts to extract a frame -/

/-- Without a delimiter an open frame is never closed. -/
theorem readFrameFrom_silent (hs : frameDelimiter ∉ s) (frameCapacity : Nat) (frame : List UInt8) :
    (readFrameFrom frameCapacity s frame).1.status = .errorInvalidFrame := by
  induction s generalizing frame with
  | nil => rfl
  | cons byte s ih =>
    have hbyte : byte ≠ frameDelimiter := fun h => hs (by simp [h])
    have hrest : frameDelimiter ∉ s := fun h => hs (by simp [h])
    rw [readFrameFrom, if_pos hbyte, if_neg hbyte]
    split_ifs
    · exact ih hrest frame
    · rfl
    · exact ih hrest _

theorem readFrame_incomplete (h : s.count frameDelimiter < 2) (frameCapacity : Nat) :
    (readFrame frameCapacity s).1.status = .errorInvalidFrame := by
  by_cases hnone : frameDelimiter ∈ s
  · obtain ⟨noise, s, rfl, hnoise⟩ := List.eq_append_cons_of_mem hnone
    rw [count_split hnoise] at h
    rw [readFrame_open hnoise]
    exact readFrameFrom_silent (List.count_eq_zero.1 (by omega)) _ _
  · exact readFrameFrom_silent hnone _ _

theorem readFrameFrom_shrinks (frameCapacity : Nat) (s frame : List UInt8) :
    (readFrameFrom frameCapacity s frame).2.length ≤ s.length - 1 := by
  induction s generalizing frame with
  | nil => rfl
  | cons byte s ih =>
    have hrest : ∀ frame', (readFrameFrom frameCapacity s frame').2.length ≤ s.length :=
      fun frame' => (ih frame').trans (Nat.sub_le ..)
    rw [readFrameFrom, List.length_cons, Nat.add_sub_cancel]
    split_ifs
    · exact hrest frame
    · exact hrest _
    · exact le_rfl
    · exact le_rfl
    · exact hrest _

/-! ## The transfer -/

variable {source destination : Ring}

theorem FirstFrame.transferFrame (h : FirstFrame source.contents body rest)
    (hfit : body.length + 2 ≤ maxEncodedByteCount) (hroom : body.length + 2 ≤ destination.room) :
    (Ring.transferFrame source destination).1 = .ok ∧
      (Ring.transferFrame source destination).2.1.contents = rest ∧
      (Ring.transferFrame source destination).2.2.contents =
        destination.contents ++ frameOf body := by
  obtain ⟨-, -, hsource, hout⟩ := Ring.transferFrame_spec source destination
  obtain ⟨noise, hs, hnoise, hbody⟩ := h
  rw [hs, frameOf_append, readFrame_fits hnoise hbody hfit] at hsource hout
  have hlength : (frameOf body).length ≤ destination.room := by simpa using hroom
  have houtcome : transferOutcome ⟨.ok, frameOf body, some (body.length + 2)⟩ destination.room
      destination.contents = (.ok, destination.contents ++ frameOf body) := by
    rw [transferOutcome, if_neg (by simp), if_pos hlength, List.take_of_length_le hlength]
  obtain ⟨hstatus, hdestination⟩ := Prod.ext_iff.1 (hout.trans houtcome)
  exact ⟨hstatus, hsource, hdestination⟩

theorem transferFrame_ok_iff :
    (Ring.transferFrame source destination).1 = .ok ↔
      ∃ body rest, FirstFrame source.contents body rest ∧
        body.length + 2 ≤ maxEncodedByteCount ∧ body.length + 2 ≤ destination.room := by
  constructor
  · intro hok
    obtain ⟨-, -, -, hout⟩ := Ring.transferFrame_spec source destination
    have hstatus := congrArg Prod.fst hout
    rw [hok, transferOutcome] at hstatus
    have hread : (readFrame maxEncodedByteCount source.contents).1.status = .ok := by
      by_contra hread
      rw [if_pos hread] at hstatus
      exact hread hstatus.symm
    rw [if_neg (not_not.2 hread)] at hstatus
    by_cases hcount : 2 ≤ source.contents.count frameDelimiter
    · obtain ⟨body, rest, hframe⟩ := exists_firstFrame hcount
      obtain ⟨noise, hs, hnoise, hbody⟩ := hframe
      rw [frameOf_append] at hs
      by_cases hfit : body.length + 2 ≤ maxEncodedByteCount
      · refine ⟨body, rest, ⟨noise, by rw [frameOf_append]; exact hs, hnoise, hbody⟩, hfit, ?_⟩
        rw [hs, readFrame_fits hnoise hbody hfit] at hstatus
        by_contra hroom
        have hlong : ¬ (frameDelimiter :: (body ++ [frameDelimiter])).length ≤ destination.room := by
          simp only [List.length_cons, List.length_append, List.length_nil]
          omega
        rw [if_neg hlong] at hstatus
        exact absurd hstatus (by simp)
      · rw [hs, readFrame_overflow hnoise hbody (by decide) (by omega)] at hread
        exact absurd hread (by simp)
    · rw [readFrame_incomplete (by omega)] at hread
      exact absurd hread (by simp)
  · rintro ⟨body, rest, hframe, hfit, hroom⟩
    exact (hframe.transferFrame hfit hroom).1

/-- Every attempt takes bytes off a source that has any. -/
theorem transferFrame_consumes (hne : source.contents ≠ []) (destination : Ring) :
    (Ring.transferFrame source destination).2.1.contents ≠ source.contents := by
  obtain ⟨-, -, hsource, -⟩ := Ring.transferFrame_spec source destination
  have hshorter : (readFrame maxEncodedByteCount source.contents).2.length ≤
      source.contents.length - 1 := readFrameFrom_shrinks ..
  have hpos := List.length_pos_iff.2 hne
  intro heq
  rw [← hsource, heq] at hshorter
  omega

/-- A transfer that fails keeps both rings, and one that succeeds moves the first frame. -/
structure TransferAtomic (source destination : Ring) : Prop where
  error : (Ring.transferFrame source destination).1 ≠ .ok →
    (Ring.transferFrame source destination).2.1.contents = source.contents ∧
      (Ring.transferFrame source destination).2.2.contents = destination.contents
  ok : (Ring.transferFrame source destination).1 = .ok → ∃ body rest,
    FirstFrame source.contents body rest ∧
      (Ring.transferFrame source destination).2.1.contents = rest ∧
      (Ring.transferFrame source destination).2.2.contents = destination.contents ++ frameOf body

/-- **A transfer is atomic exactly when it succeeds or the source is empty**: when the first frame
of the source fits the frame buffer and the room of the destination, or there is nothing to lose. -/
theorem transferFrame_atomic_iff (source destination : Ring) :
    TransferAtomic source destination ↔
      source.contents = [] ∨ ∃ body rest, FirstFrame source.contents body rest ∧
        body.length + 2 ≤ maxEncodedByteCount ∧ body.length + 2 ≤ destination.room := by
  constructor
  · intro h
    by_cases hok : (Ring.transferFrame source destination).1 = .ok
    · exact .inr (transferFrame_ok_iff.1 hok)
    · refine .inl ?_
      by_contra hne
      exact transferFrame_consumes hne destination (h.error hok).1
  · rintro (hempty | ⟨body, rest, hframe, hfit, hroom⟩)
    · obtain ⟨-, -, hsource, hout⟩ := Ring.transferFrame_spec source destination
      rw [hempty] at hsource hout
      have hkept := congrArg Prod.snd hout
      refine ⟨fun _ => ⟨hsource.trans hempty.symm, hkept⟩, fun hok => ?_⟩
      have herror : (Ring.transferFrame source destination).1 = .errorInvalidFrame :=
        congrArg Prod.fst hout
      rw [hok] at herror
      exact absurd herror (by simp)
    · obtain ⟨hok, hsource, hdestination⟩ := hframe.transferFrame hfit hroom
      exact ⟨fun herror => absurd hok herror, fun _ => ⟨body, rest, hframe, hsource, hdestination⟩⟩

/-- A ring with these bytes and room for no more than `capacity`. -/
def ringHolding (capacity : Nat) (bytes : List UInt8)
    (h : capacity ≤ ringBufferStorageCapacity) : Ring :=
  ((Ring.zero.reset capacity h).writeBytes bytes).2

/-- A frame of three bytes for a ring with room for one: the frame is gone from the source, and its
first byte alone is in the destination. -/
theorem transferFrame_tears :
    let source := ringHolding 16 [0x7E, 0x01, 0x7E] (by decide)
    let destination := ringHolding 1 [] (by decide)
    let out := Ring.transferFrame source destination
    source.contents = [0x7E, 0x01, 0x7E] ∧ out.1 = .errorInvalidFrame ∧
      out.2.1.contents = [] ∧ out.2.2.contents = [0x7E] ∧ ¬ TransferAtomic source destination := by
  intro source destination out
  have hsource : source.contents = [0x7E, 0x01, 0x7E] := by simp [source, ringHolding]
  have hdestination : destination.contents = [] := by simp [destination, ringHolding]
  have hroom : destination.room = 1 := by
    rw [Ring.room, hdestination]
    simp [destination, ringHolding]
  obtain ⟨-, -, hrest, hout⟩ := Ring.transferFrame_spec source destination
  rw [hsource] at hrest hout
  rw [hroom, hdestination] at hout
  have herror : out.1 = .errorInvalidFrame := congrArg Prod.fst hout
  refine ⟨hsource, herror, hrest, congrArg Prod.snd hout, ?_⟩
  intro h
  have hfailed : out.1 ≠ .ok := by
    rw [herror]
    simp
  exact transferFrame_consumes (by rw [hsource]; simp) destination (h.error hfailed).1

end Xr17v358
