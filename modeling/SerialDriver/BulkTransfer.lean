import SerialDriver.FrameTransfer

/-!
# Moving many frames between rings

`Ring.transferFrames` moves frames while `frameCount` finds one in the source. The counter lets the
delimiter that ends a frame open the next; the extractor consumes it, and takes empty frames too. So
the two segment a stream alike only where no frame is empty and no delimiter is shared, and otherwise
the counts before and after do not add up (`transferFrames_counts_iff`).

* `Moved` — the turns of the loop, on the contents of the rings (`moved_of_loop`).
* `FirstFrame.frameCount_eq` — what extracting one frame does to the count.
-/

namespace Xr17v358

open Delimited

/-! ## Counting across a frame -/

/-- Behind a delimiter the count starts afresh, in a frame. -/
theorem frameCountFrom_delimiter (s s' : List UInt8) (k : Nat) (inFrame : Bool) :
    frameCountFrom (s ++ frameDelimiter :: s') k inFrame =
      frameCountFrom (s ++ [frameDelimiter]) k inFrame + frameCountFrom s' 0 true := by
  induction s generalizing k inFrame with
  | nil =>
    rw [List.nil_append, List.nil_append, frameCountFrom, frameCountFrom, if_pos rfl, if_pos rfl]
    rfl
  | cons value s ih =>
    rw [List.cons_append, List.cons_append, frameCountFrom, frameCountFrom]
    split_ifs
    · rw [ih, Nat.add_assoc]
    · rw [ih, Nat.add_assoc]
    · exact ih ..
    · exact ih ..

theorem frameCountFrom_frameOf {body : List UInt8} (hbody : frameDelimiter ∉ body)
    (s : List UInt8) (inFrame : Bool) :
    frameCountFrom (frameOf body ++ s) 0 inFrame =
      (if body = [] then 0 else 1) + frameCountFrom s 0 true := by
  rw [frameOf_append, frameCountFrom, if_pos rfl, frameCountFrom_close hbody]
  cases body <;> simp

theorem frameCount_noise {noise : List UInt8} (hnoise : frameDelimiter ∉ noise) (s : List UInt8) :
    frameCount (noise ++ s) = frameCount s := by
  unfold frameCount
  induction noise with
  | nil => rfl
  | cons value noise ih =>
    have hvalue : value ≠ frameDelimiter := fun h => hnoise (by simp [h])
    rw [List.cons_append, frameCountFrom, if_neg hvalue, if_neg Bool.false_ne_true]
    exact ih fun h => hnoise (by simp [h])

/-- No delimiter behind other bytes: the stream has none, or starts with one. -/
def StartsClean (s : List UInt8) : Prop :=
  frameDelimiter ∉ s ∨ s.head? = some frameDelimiter

theorem startsClean_frames {bodies : List (List UInt8)} {s : List UInt8} (h : StartsClean s) :
    StartsClean (bodies.flatMap frameOf ++ s) := by
  cases bodies with
  | nil => exact h
  | cons body bodies => exact .inr rfl

theorem frameCountFrom_true {s : List UInt8} :
    frameCount s ≤ frameCountFrom s 0 true ∧
      (frameCountFrom s 0 true = frameCount s ↔ StartsClean s) := by
  by_cases hmem : frameDelimiter ∈ s
  · obtain ⟨noise, s, rfl, hnoise⟩ := List.eq_append_cons_of_mem hmem
    have hcount : frameCount (noise ++ frameDelimiter :: s) = frameCountFrom s 0 true := by
      rw [frameCount_noise hnoise, frameCount, frameCountFrom, if_pos rfl, if_neg (by simp),
        Nat.zero_add]
    rw [hcount, frameCountFrom_close hnoise, Nat.zero_add]
    refine ⟨Nat.le_add_left .., ?_⟩
    cases noise with
    | nil => simp [StartsClean]
    | cons value noise =>
      have hvalue : value ≠ frameDelimiter := fun h => hnoise (by simp [h])
      simp [StartsClean, hvalue]
  · have hnone : frameCountFrom s 0 true = 0 ∧ frameCount s = 0 := by
      have hbody := frameCountFrom_body hmem [] 0
      have hnoise := frameCount_noise hmem []
      rw [List.append_nil] at hbody hnoise
      exact ⟨hbody, hnoise⟩
    rw [hnone.1, hnone.2]
    exact ⟨le_rfl, by simp [StartsClean, hmem]⟩

/-- A frame taken off a stream: itself, if it is not empty, and a frame that the delimiter it ends
with would have opened. -/
theorem FirstFrame.frameCount_eq {s body rest : List UInt8} (h : FirstFrame s body rest) :
    frameCount s = (if body = [] then 0 else 1) + frameCountFrom rest 0 true := by
  obtain ⟨noise, rfl, hnoise, hbody⟩ := h
  rw [frameCount_noise hnoise]
  exact frameCountFrom_frameOf hbody rest false

/-- A ring that ends with a delimiter gains a frame that is not empty. -/
theorem frameCount_gains {d body : List UInt8} (hd : d = [] ∨ ∃ s, d = s ++ [frameDelimiter])
    (hbody : frameDelimiter ∉ body) :
    frameCount (d ++ frameOf body) = frameCount d + if body = [] then 0 else 1 := by
  have hframe := frameCountFrom_frameOf hbody []
  rw [List.append_nil] at hframe
  rcases hd with rfl | ⟨s, rfl⟩
  · rw [List.nil_append, frameCount, hframe, Nat.add_comm]
    rfl
  · rw [List.append_assoc, List.singleton_append, frameCount, frameCountFrom_delimiter, hframe]
    rfl

/-! ## The turns of the loop -/

/-- The loop makes a turn: a frame is counted in the source, and the destination can accept one. -/
def Continues (limit capacity : Nat) (s d : List UInt8) : Prop :=
  0 < frameCount s ∧ frameCount d < limit ∧ d.length + maxEncodedByteCount ≤ capacity

/-- A loop that moves `t` frames without an error, on the contents of the two rings. -/
inductive Moved (limit capacity : Nat) :
    List UInt8 → List UInt8 → Nat → List UInt8 → List UInt8 → Prop
  | stop {s d : List UInt8} (hstop : ¬ Continues limit capacity s d) : Moved limit capacity s d 0 s d
  | move {s d s' d' body rest : List UInt8} {t : Nat} (hgo : Continues limit capacity s d)
      (hframe : FirstFrame s body rest)
      (hrest : Moved limit capacity rest (d ++ frameOf body) t s' d') :
      Moved limit capacity s d (t + 1) s' d'

theorem transferFrame_run (source destination : Ring) :
    ringTransferFrame source.1 destination.1 =
      some ((Ring.transferFrame source destination).1,
        (Ring.transferFrame source destination).2.1.1,
        (Ring.transferFrame source destination).2.2.1) :=
  (Option.some_get _).symm

/-- The loop ends, and if it ends well its turns are those of `Moved`. -/
theorem moved_of_loop (limit : Nat) {n : Nat} {source destination : Ring}
    (hn : source.contents.length < n) (k : Nat) :
    ∃ e t, ∃ source' destination' : Ring,
      ringTransferFramesLoop limit n source.1 destination.1 k =
        some (e, k + t, source'.1, destination'.1) ∧
      (e = .ok → Moved limit destination.capacity source.contents destination.contents t
        source'.contents destination'.contents) := by
  induction n generalizing source destination k with
  | zero => exact absurd hn (Nat.not_lt_zero _)
  | succ n ih =>
    have hguard : (0 < frameCount source.1.contents ∧
        decide (frameCount destination.1.contents < limit ∧
          destination.1.size + maxEncodedByteCount ≤ destination.1.capacity) = true) ↔
        Continues limit destination.capacity source.contents destination.contents := by
      rw [show destination.1.size = _ from destination.size_eq, decide_eq_true_iff]
      rfl
    rw [ringTransferFramesLoop, ringFrameCount_spec source.2, ringCanAcceptFrame_spec destination.2]
    simp only [Option.bind_eq_bind, Option.bind_some, Option.pure_def]
    by_cases hgo : Continues limit destination.capacity source.contents destination.contents
    · rw [if_pos (hguard.2 hgo), transferFrame_run]
      simp only [Option.bind_some]
      by_cases hok : (Ring.transferFrame source destination).1 = .ok
      · rw [if_neg (not_not.2 hok)]
        obtain ⟨body, rest, hframe, hfit, hroom⟩ := transferFrame_ok_iff.1 hok
        obtain ⟨-, hsource, hdestination⟩ := hframe.transferFrame hfit hroom
        have hcapacity := (Ring.transferFrame_spec source destination).2.1
        have hshorter : rest.length < source.contents.length := by
          obtain ⟨noise, hs, -⟩ := hframe
          rw [hs, List.length_append, List.length_append, length_frameOf]
          omega
        rw [← hsource] at hshorter
        obtain ⟨e, t, source', destination', hrun, hmoved⟩ :=
          @ih (Ring.transferFrame source destination).2.1
            (Ring.transferFrame source destination).2.2 (by omega) (k + 1)
        refine ⟨e, t + 1, source', destination', ?_, ?_⟩
        · rw [hrun, Nat.add_assoc, Nat.add_comm 1 t]
        · intro he
          have hrest := hmoved he
          rw [hcapacity, hsource, hdestination] at hrest
          exact .move hgo hframe hrest
      · rw [if_pos hok]
        exact ⟨_, 0, _, _, rfl, fun he => absurd he hok⟩
    · rw [if_neg fun h => hgo (hguard.1 h)]
      exact ⟨.ok, 0, source, destination, rfl, fun _ => .stop hgo⟩

/-! ## The whole transfer -/

theorem ringTransferFrames_spec (source destination : Ring) (limit : Nat) :
    ∃ e t, ∃ source' destination' : Ring,
      ringTransferFrames source.1 destination.1 limit .valid =
        some (e, if e = .ok then some t else none, source'.1, destination'.1) ∧
      (e = .ok → Moved limit destination.capacity source.contents destination.contents t
        source'.contents destination'.contents) := by
  have hn : source.contents.length < source.1.size + 1 :=
    Nat.lt_succ_of_le source.size_eq.ge
  obtain ⟨e, t, source', destination', hrun, hmoved⟩ := moved_of_loop limit hn 0
  refine ⟨e, t, source', destination', ?_, hmoved⟩
  rw [ringTransferFrames, if_neg (by simp), hrun, Nat.zero_add]
  rfl

/-- `xr17v358_ring_transfer_frames`: the status, the value stored through `transferred_count`, the
source and the destination. -/
def Ring.transferFrames (source destination : Ring) (destinationFrameCapacity : Nat) :
    Error × Option Nat × Ring × Ring :=
  let out := (ringTransferFrames source.1 destination.1 destinationFrameCapacity .valid).get (by
    obtain ⟨_, _, _, _, hrun, -⟩ :=
      ringTransferFrames_spec source destination destinationFrameCapacity
    rw [hrun]; rfl)
  have hwf : out.2.2.1.WF ∧ out.2.2.2.WF := by
    obtain ⟨_, _, source', destination', hrun, -⟩ :=
      ringTransferFrames_spec source destination destinationFrameCapacity
    rw [show out = _ from Option.get_of_eq_some _ hrun]
    exact ⟨source'.2, destination'.2⟩
  (out.1, out.2.1, ⟨out.2.2.1, hwf.1⟩, ⟨out.2.2.2, hwf.2⟩)

/-- A call that returns `ok` has moved the frames it reports. -/
theorem Ring.transferFrames_moved {source destination : Ring} {limit t : Nat}
    (hok : (Ring.transferFrames source destination limit).1 = .ok)
    (ht : (Ring.transferFrames source destination limit).2.1 = some t) :
    Moved limit destination.capacity source.contents destination.contents t
      (Ring.transferFrames source destination limit).2.2.1.contents
      (Ring.transferFrames source destination limit).2.2.2.contents := by
  obtain ⟨e, t', source', destination', hrun, hmoved⟩ :=
    ringTransferFrames_spec source destination limit
  have hout : Ring.transferFrames source destination limit =
      (e, if e = .ok then some t' else none, source', destination') := by
    have hget : (ringTransferFrames source.1 destination.1 limit .valid).get
        (by rw [hrun]; rfl) = _ := Option.get_of_eq_some _ hrun
    unfold Ring.transferFrames
    simp only [hget]
  rw [hout] at hok ht ⊢
  obtain rfl : e = .ok := hok
  obtain rfl : t' = t := Option.some.inj ht
  exact hmoved rfl

/-! ## When the counts add up -/

variable {limit capacity t : Nat} {s d s' d' : List UInt8}

/-- The stream is empty or ends with a delimiter. -/
def Closed (d : List UInt8) : Prop := d = [] ∨ ∃ s, d = s ++ [frameDelimiter]

theorem closed_frame (d body : List UInt8) : Closed (d ++ frameOf body) :=
  .inr ⟨d ++ frameDelimiter :: body, by simp [frameOf]⟩

/-- The destination gains no more frames than are moved, and no more than the source gives. -/
theorem Moved.counts_le (h : Moved limit capacity s d t s' d') (hd : Closed d) :
    frameCount d' ≤ frameCount d + t ∧
      frameCount s' + frameCount d' ≤ frameCount s + frameCount d := by
  induction h with
  | stop => exact ⟨le_rfl, le_rfl⟩
  | @move s d s' d' body rest t _ hframe _ ih =>
    obtain ⟨hgain, hgive⟩ := ih (closed_frame d body)
    have hcount := hframe.frameCount_eq
    have hrest := (frameCountFrom_true (s := rest)).1
    obtain ⟨noise, -, -, hbody⟩ := hframe
    rw [frameCount_gains hd hbody] at hgain hgive
    split_ifs at hcount hgain hgive <;> exact ⟨by omega, by omega⟩

/-- The stream is noise and then frames, none of them empty, back to back; what follows these starts
clean, and there the loop stops. -/
def SegmentsAlike (limit capacity : Nat) (s d : List UInt8) : Prop :=
  ∃ (noise : List UInt8) (bodies : List (List UInt8)) (rest : List UInt8),
    s = noise ++ (bodies.flatMap frameOf ++ rest) ∧ frameDelimiter ∉ noise ∧
    (∀ body ∈ bodies, body ≠ [] ∧ frameDelimiter ∉ body) ∧ StartsClean rest ∧
    ¬ Continues limit capacity rest (d ++ bodies.flatMap frameOf)

theorem exists_startsClean (s : List UInt8) :
    ∃ noise rest, s = noise ++ rest ∧ frameDelimiter ∉ noise ∧ StartsClean rest := by
  by_cases hmem : frameDelimiter ∈ s
  · obtain ⟨noise, s, rfl, hnoise⟩ := List.eq_append_cons_of_mem hmem
    exact ⟨noise, _, rfl, hnoise, .inr rfl⟩
  · exact ⟨[], s, rfl, by simp, .inl hmem⟩

/-- Where the counts add up, the frames moved are not empty and share no delimiter. -/
theorem Moved.segmentsAlike (h : Moved limit capacity s d t s' d') (hd : Closed d)
    (hsource : frameCount s = t + frameCount s')
    (hdestination : frameCount d' = frameCount d + t) : SegmentsAlike limit capacity s d := by
  induction h with
  | @stop s d hstop =>
    obtain ⟨noise, rest, rfl, hnoise, hclean⟩ := exists_startsClean s
    refine ⟨noise, [], rest, rfl, hnoise, by simp, hclean, ?_⟩
    rw [List.flatMap_nil, List.append_nil]
    unfold Continues at hstop ⊢
    rwa [frameCount_noise hnoise] at hstop
  | @move s d s' d' body rest t _ hframe hmoved ih =>
    obtain ⟨hgain, hgive⟩ := hmoved.counts_le (closed_frame d body)
    have hcount := hframe.frameCount_eq
    obtain ⟨hle, hshared⟩ := frameCountFrom_true (s := rest)
    obtain ⟨noise, rfl, hnoise, hbody⟩ := hframe
    rw [frameCount_gains hd hbody] at hgain hgive
    have hne : body ≠ [] := by
      rintro rfl
      rw [if_pos rfl] at hgain
      omega
    rw [if_neg hne] at hcount hgain hgive
    have hclean : StartsClean rest := hshared.1 (by omega)
    have hgained := frameCount_gains hd hbody
    rw [if_neg hne] at hgained
    obtain ⟨noise', bodies, rest', rfl, hnoise', hbodies, hclean', hstop⟩ :=
      ih (closed_frame d body) (by omega) (by omega)
    -- What the first frame leaves starts clean, so the noise in front of the next is empty.
    rcases hclean with hnone | hhead
    · refine ⟨noise, [body], noise' ++ (bodies.flatMap frameOf ++ rest'), by simp, hnoise,
        by simp [hne, hbody], .inl hnone, fun hgo => ?_⟩
      have hzero : frameCount (noise' ++ (bodies.flatMap frameOf ++ rest')) = 0 := by
        have := frameCount_noise hnone []
        rwa [List.append_nil] at this
      exact absurd hgo.1 (by omega)
    · obtain rfl : noise' = [] := by
        cases noise' with
        | nil => rfl
        | cons value noise' =>
          have hvalue : value = frameDelimiter := by simpa using hhead
          exact absurd (by simp [hvalue]) hnoise'
      refine ⟨noise, body :: bodies, rest', by simp, hnoise, ?_, hclean', ?_⟩
      · exact List.forall_mem_cons.2 ⟨⟨hne, hbody⟩, hbodies⟩
      · rwa [List.append_assoc, ← List.flatMap_cons] at hstop

/-- Where the two segment the stream alike, the counts add up. -/
theorem Moved.counts (h : Moved limit capacity s d t s' d') (hd : Closed d)
    (hsame : SegmentsAlike limit capacity s d) :
    frameCount s = t + frameCount s' ∧ frameCount d' = frameCount d + t := by
  induction h with
  | stop => exact ⟨(Nat.zero_add _).symm, rfl⟩
  | @move s d s' d' body rest t hgo hframe _ ih =>
    obtain ⟨noise, bodies, tail, rfl, hnoise, hbodies, hclean, hstop⟩ := hsame
    cases bodies with
    | nil =>
      rw [List.flatMap_nil, List.append_nil] at hstop
      refine absurd ⟨?_, hgo.2⟩ hstop
      have hcount := hgo.1
      rwa [frameCount_noise hnoise, List.flatMap_nil, List.nil_append] at hcount
    | cons body' bodies =>
      obtain ⟨⟨hne, hbody⟩, hothers⟩ := List.forall_mem_cons.1 hbodies
      have hfirst : FirstFrame (noise ++ ((body' :: bodies).flatMap frameOf ++ tail)) body'
          (bodies.flatMap frameOf ++ tail) :=
        ⟨noise, by rw [List.flatMap_cons, List.append_assoc], hnoise, hbody⟩
      obtain ⟨rfl, rfl⟩ := hframe.unique hfirst
      obtain ⟨hsource, hdestination⟩ := ih (closed_frame d body)
        ⟨[], bodies, tail, rfl, by simp, hothers, hclean, by
          rwa [List.append_assoc, ← List.flatMap_cons]⟩
      have hcount := hframe.frameCount_eq
      have hshared := (frameCountFrom_true (s := bodies.flatMap frameOf ++ tail)).2.2
        (startsClean_frames hclean)
      rw [if_neg hne] at hcount
      rw [frameCount_gains hd hbody, if_neg hne] at hdestination
      exact ⟨by omega, by omega⟩

/-- **The counts add up exactly when the counter and the extractor segment the source alike**: the
frames moved are not empty and stand back to back behind noise, and no delimiter is shared with what
follows them. -/
theorem transferFrames_counts_iff {source destination : Ring} {limit t : Nat}
    {ds : List (List UInt8)} (hds : ∀ d ∈ ds, ValidPayload d)
    (hdestination : destination.contents = ds.flatMap encode)
    (hok : (Ring.transferFrames source destination limit).1 = .ok)
    (ht : (Ring.transferFrames source destination limit).2.1 = some t) :
    (source.frameCount = t + (Ring.transferFrames source destination limit).2.2.1.frameCount ∧
        (Ring.transferFrames source destination limit).2.2.2.frameCount =
          destination.frameCount + t) ↔
      SegmentsAlike limit destination.capacity source.contents destination.contents := by
  have hmoved := Ring.transferFrames_moved hok ht
  have hclosed : Closed destination.contents := by
    rw [hdestination]
    rcases List.eq_nil_or_concat' ds with rfl | ⟨ds, d, rfl⟩
    · exact .inl rfl
    · refine .inr ⟨ds.flatMap encode ++ frameDelimiter :: serialCode.stuff d, ?_⟩
      rw [List.flatMap_append, List.flatMap_singleton, encode_eq (hds d (by simp))]
      simp
  simp only [Ring.frameCount_eq]
  constructor
  · rintro ⟨hsource, hgain⟩
    exact hmoved.segmentsAlike hclosed hsource hgain
  · exact hmoved.counts hclosed

/-- The test's two frames, one of them moved. -/
theorem transferFrames_counts_twoFrames :
    let source := ringHolding 16 [0x7E, 0x10, 0x7E, 0x7E, 0x20, 0x7E] (by decide)
    let destination := ringHolding 4100 [] (by decide)
    let out := Ring.transferFrames source destination 1
    source.frameCount = 1 + out.2.2.1.frameCount ∧
      out.2.2.2.frameCount = destination.frameCount + 1 := by
  intro source destination out
  have hsource : source.contents = [0x7E, 0x10, 0x7E, 0x7E, 0x20, 0x7E] := by
    simp [source, ringHolding]
  have hdestination : destination.contents = ([] : List (List UInt8)).flatMap encode := by
    simp [destination, ringHolding]
  refine (@transferFrames_counts_iff source destination 1 1 [] (by simp) hdestination
    (by decide +kernel) (by decide +kernel)).2 ?_
  refine ⟨[], [[0x10]], [0x7E, 0x20, 0x7E], hsource, by simp, by decide, .inr rfl, ?_⟩
  -- The destination holds one frame, which is all it may hold.
  intro hgo
  have hcount := hgo.2.1
  rw [hdestination] at hcount
  exact absurd hcount (by decide)

/-- One delimiter between two bodies: two frames are counted, one is moved and none is left. -/
theorem transferFrames_sharedDelimiter :
    let source := ringHolding 16 [0x7E, 0x01, 0x7E, 0x02, 0x7E] (by decide)
    let destination := ringHolding 4096 [] (by decide)
    let out := Ring.transferFrames source destination 256
    destination.contents = ([] : List (List UInt8)).flatMap encode ∧ out.1 = .ok ∧
      out.2.1 = some 1 ∧ source.frameCount = 2 ∧ out.2.2.1.frameCount = 0 ∧
      source.frameCount ≠ 1 + out.2.2.1.frameCount := by
  refine ⟨?_, ?_, ?_, ?_, ?_, ?_⟩ <;> decide +kernel

end Xr17v358
