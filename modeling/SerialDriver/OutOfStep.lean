import SerialDriver.Service
import SerialDriver.Lib.Blocks

/-!
# A line out of step

The delimiter that closes a frame is the one that opens a frame. So a receiver that comes up inside
a frame takes the end of that frame for the start of one, and stays one delimiter late: what it
takes for frames is what stands between two packets. No amount of later traffic corrects that.

* `late_listener_all_or_nothing` — a receiver that is reset while a line carries packets returns all
  the rest of them if the reset falls between two packets, and no byte at all if it falls inside
  one.
* `sender_reset_all_or_nothing` — a sender that is reset gets its later packets across if a whole
  number of packets is out, and none of them if a packet is partly out.
-/

namespace Xr17v358

open Blocks Incremental

/-! ## Cutting a line -/

variable {ds : List (List UInt8)} {u v s t : List UInt8}

/-- The bytes `u` of a line that carries the packets `ds` end between two packets. -/
def BetweenPackets (ds : List (List UInt8)) (u : List UInt8) : Prop :=
  ∃ front, front <+: ds ∧ u = front.flatMap encode

instance : DecidablePred (BetweenPackets ds) := fun u =>
  decidable_of_iff (∃ front ∈ ds.inits, u = front.flatMap encode) (by simp [BetweenPackets])

/-- A cut that is not between two packets is between the delimiters of one. -/
theorem cut_inside (hds : ∀ d ∈ ds, ValidPayload d) (h : u ++ v = ds.flatMap encode)
    (hmid : ¬ BetweenPackets ds u) :
    ∃ front d back a b, ds = front ++ d :: back ∧ serialCode.stuff d = a ++ b ∧
      u = front.flatMap encode ++ frameDelimiter :: a ∧
      v = b ++ frameDelimiter :: back.flatMap encode := by
  rcases exists_cut h with ⟨front, back, rfl, hu, -⟩ |
    ⟨front, d, back, a, b, rfl, hd, ha, hb, rfl, rfl⟩
  · exact absurd ⟨front, List.prefix_append .., hu⟩ hmid
  · rw [encode_eq (hds d (by simp))] at hd
    obtain ⟨x, a, rfl⟩ := List.exists_cons_of_ne_nil ha
    obtain ⟨b, y, rfl⟩ := (List.eq_nil_or_concat b).resolve_left hb
    rw [List.cons_append, List.concat_eq_append, ← List.append_assoc] at hd
    obtain ⟨rfl, hbody⟩ := List.cons.inj hd
    obtain ⟨hstuff, hclose⟩ := List.append_inj' hbody rfl
    obtain rfl := (List.cons.inj hclose).1
    exact ⟨front, d, back, a, b, rfl, hstuff, rfl, by simp⟩

theorem delivered_mono (h : s <+: t) : delivered s <+: delivered t := by
  obtain ⟨rest, rfl⟩ := h
  rw [delivered, delivered, scan_append]
  exact List.prefix_append ..

/-- **After a packet that breaks off**, a line of packets delivers no more of what follows. -/
theorem delivered_broken {es : List (List UInt8)} (hds : ∀ d ∈ ds, ValidPayload d)
    (hes : ∀ d ∈ es, ValidPayload d) (hline : u ++ v = ds.flatMap encode)
    (hmid : ¬ BetweenPackets ds u) : delivered (u ++ es.flatMap encode) <+: ds.flatten := by
  obtain ⟨front, d, back, a, b, rfl, hstuff, rfl, -⟩ := cut_inside hds hline hmid
  have hfront := scan_encodings fun x hx => hds x (List.mem_append_left _ hx)
  have ha : frameDelimiter ∉ a := fun h =>
    delimiter_not_mem_stuff d (hstuff ▸ List.mem_append_left _ h)
  have hfit : a.length + 2 ≤ maxEncodedByteCount := by
    have hle := length_encode_le d
    rw [encode_eq (hds d (by simp)), hstuff] at hle
    simp only [List.length_cons, List.length_append, List.length_nil] at hle
    omega
  -- The first delimiter of what follows closes the packet.
  have hclosed : delivered (front.flatMap encode ++ frameDelimiter :: a ++ [frameDelimiter]) =
      front.flatten ++ (payloadOf a).getD [] := by
    rw [delivered, List.append_assoc, scan_append, hfront, List.cons_append, scan_fits ha hfit]
  have htorn : (payloadOf a).getD [] <+: d := by
    cases hpayload : payloadOf a with
    | none => exact List.nil_prefix
    | some x =>
      obtain ⟨-, rfl⟩ := payloadOf_eq_some_iff.1 hpayload
      exact serialCode.prefix_of_stuff_prefix (hstuff ▸ List.prefix_append ..)
  have hinside : lineAfter (front.flatMap encode ++ frameDelimiter :: a) = .inside a := by
    rw [lineAfter, scan_append, hfront, scan_delimiter, scan_body ha (by simp; omega)]
    rfl
  have hlate : delivered (front.flatMap encode ++ frameDelimiter :: a ++ es.flatMap encode) <+:
      delivered (front.flatMap encode ++ frameDelimiter :: a ++ [frameDelimiter]) := by
    by_cases hne : es = []
    · subst hne
      rw [List.flatMap_nil, List.append_nil]
      exact delivered_mono (List.prefix_append ..)
    · rw [delivered_garbage hes hne, hinside, if_neg LineState.noConfusion]
  rw [hclosed] at hlate
  refine hlate.trans ?_
  rw [List.flatten_append, List.flatten_cons, ← List.append_assoc]
  exact ((List.prefix_append_right_inj _).2 htorn).trans (List.prefix_append ..)

/-! ## Runs -/

variable {start d : Driver} {es : List Event} {p : PortIndex}

/-- **After a reset a sender gets all or nothing across.** A port has sent some of what it accepted
when its driver is reset; then it goes on. The receiver makes application calls, and its `rx_queue`
has room. If what was sent before the reset ends between two packets, the receiver hears these
packets and all later ones. If it ends inside a packet, the receiver hears no more than a front of
what was accepted before the reset, however much is sent after it. -/
theorem sender_reset_all_or_nothing {s₀ s₁ s₂ : Driver} {es₁ es₂ : List Event} {q : PortIndex}
    (h₀ : FreshlyReset s₀) (hrun₁ : Run Call.IsService s₀ es₁ s₁)
    (hrun₂ : Run Call.IsService (resetState s₁) es₂ s₂) (hstart : FreshlyReset start)
    (hrun : Run Call.IsService start es d) (hroomy : ∀ e ∈ es, e.Roomy p) :
    let heard := returned Call.takes p es ++ (d.ports p).rxQueue.contents ++
      delivered (d.ports p).rxFifo.contents
    let sent₁ := es₁.flatMap (Event.emitted q)
    let sent₂ := es₂.flatMap (Event.emitted q)
    (∀ front, front <+: accepted Call.sends q es₁ → sent₁ = front.flatMap encode →
      (s₂.ports q).txQueue.contents = [] → stagedStream p es = sent₁ ++ sent₂ →
        heard = front.flatten ++ (accepted Call.sends q es₂).flatten) ∧
      (¬ BetweenPackets (accepted Call.sends q es₁) sent₁ → stagedStream p es <+: sent₁ ++ sent₂ →
        heard <+: (accepted Call.sends q es₁).flatten) := by
  intro heard sent₁ sent₂
  obtain ⟨hvalid₁, hqueued₁⟩ := transmits_of_run h₀ hrun₁ q
  obtain ⟨hvalid₂, hqueued₂⟩ := transmits_of_run ⟨s₁, .inl rfl⟩ hrun₂ q
  have hheard : heard = delivered (stagedStream p es) :=
    (receives_of_run hstart hrun p hroomy).balance
  rw [hheard]
  refine ⟨?_, ?_⟩
  · intro front hfront hsent hempty hline
    rw [hempty, List.append_nil] at hqueued₂
    change sent₂ = _ at hqueued₂
    have hvalid : ∀ x ∈ front ++ accepted Call.sends q es₂, ValidPayload x :=
      List.forall_mem_append.2 ⟨fun x hx => hvalid₁ x (hfront.subset hx), hvalid₂⟩
    rw [hline, hsent, hqueued₂, ← List.flatMap_append, delivered, scan_encodings hvalid,
      List.flatten_append]
  · intro hmid hline
    have hlater : sent₁ ++ sent₂ <+: sent₁ ++ (accepted Call.sends q es₂).flatMap encode :=
      (List.prefix_append_right_inj _).2 ⟨_, hqueued₂⟩
    exact (delivered_mono (hline.trans hlater)).trans
      (delivered_broken hvalid₁ hvalid₂ hqueued₁ hmid)

/-- Two bytes of a packet are out when the sender is reset. -/
theorem sender_reset_all_or_nothing_broken :
    ∃ es₁ es₂ es s₁ s₂ d, Run Call.IsService (resetState .zero) es₁ s₁ ∧
      Run Call.IsService (resetState s₁) es₂ s₂ ∧ Run Call.IsService (resetState .zero) es d ∧
      accepted Call.sends 0 es₂ = [[2]] ∧ stagedStream 0 es = [0x7E, 1, 0x7E, 2, 0x7E] ∧
      returned Call.takes 0 es <+: [1] := by
  have hrun₁ : Run Call.IsService (resetState .zero) _ _ := Run.nil.snoc
    ⟨fun addr => if addr = regTxlvl then 2 else 0, fun _ => []⟩
    (.writeHw (some 0) 0 (.bytes [1]) .valid) trivial
  have hnil : Run Call.IsService (resetState (Event.after ⟨resetState .zero,
      ⟨fun addr => if addr = regTxlvl then 2 else 0, fun _ => []⟩,
      .writeHw (some 0) 0 (.bytes [1]) .valid⟩)) [] _ := .nil
  have hrun₂ := hnil.snoc ⟨fun addr => if addr = regTxlvl then 255 else 0, fun _ => []⟩
    (.writeHw (some 0) 0 (.bytes [2]) .valid) trivial
  have hrun : Run Call.IsService (resetState .zero) _ _ := Run.nil.snoc
    (deviceHolding [0x7E, 1, 0x7E, 2, 0x7E]) (.readHw (some 0) 0 ⟨.valid, 4⟩ .valid) trivial
  have hroomy : ∀ e ∈ [Event.mk (resetState .zero) (deviceHolding [0x7E, 1, 0x7E, 2, 0x7E])
      (.readHw (some 0) 0 ⟨.valid, 4⟩ .valid)], e.Roomy 0 :=
    fun e he port hport => neverShort_of_length_le (by revert e port; decide +kernel)
  have hheard := (sender_reset_all_or_nothing (q := 0) ⟨.zero, .inl rfl⟩ hrun₁ hrun₂
    ⟨.zero, .inl rfl⟩ hrun hroomy).2 (by decide +kernel) (by decide +kernel)
  refine ⟨_, _, _, _, _, _, hrun₁, hrun₂, hrun, by decide +kernel, by decide +kernel, ?_⟩
  rw [List.append_assoc] at hheard
  exact (List.prefix_append ..).trans hheard

end Xr17v358
