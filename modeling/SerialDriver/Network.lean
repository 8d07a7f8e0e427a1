import SerialDriver.Lib.Pipe
import SerialDriver.Service

/-!
# Boards on a line

Any number of boards run the driver side by side, and lines run from the transmitters of ports to
the receivers of others. A line is what the driver takes it for: it delivers the bytes a flush put
into a FIFO window, in order, whenever and in whatever pieces it likes. A port wired to itself is in
loopback.

**The state** (`Network`). The drivers, and for each port the bytes on their way to it.

**Runs** (`NetRun`). Any interleaving of the boards' calls. They are the calls of an application on
the hardware path (`Call.IsService`): `pollPort`, the raw FIFO calls, the helpers that move bytes and
the resets are not among them. Every call finds the device memory that its environment chose, and
what it stages on a wired port is what its line brings next (`Network.Carries`). A run begins on
boards just after a reset, with nothing on the lines (`Network.Fresh`).

**The invariant** (`Books`). What the sender still queues, what is on the line and what the receiver
has staged are together the encodings of whole packets. Their payloads, what the receiver has
decoded and what it has returned make up what the sender accepted.

Main result: `link_refines_pipe`. In such a run, as long as no more than `rx_queue` can hold is owed
to the receiver, a line between two drivers is a pipe for payload bytes.
-/

namespace Xr17v358

open Incremental

/-- A port of a board. -/
structure Endpoint (κ : Type) where
  board : κ
  port : PortIndex

structure Network (κ : Type) where
  boards : κ → Driver
  line : Endpoint κ → List UInt8

variable {κ : Type}

/-- A call on a board. -/
def Network.event (net : Network κ) (k : κ) (m : DeviceMemory) (c : Call) : κ × Event :=
  (k, ⟨net.boards k, m, c⟩)

/-- The state of the port at an endpoint. -/
def Network.port (net : Network κ) (r : Endpoint κ) : Port := (net.boards r.board).ports r.port

/-! ## The invariant -/

/-- The packets in flight between two endpoints, and the books they balance. -/
structure Books (net : Network κ) (s r : Endpoint κ) (sent : List (List UInt8))
    (got : List UInt8) (inFlight : List (List UInt8)) : Prop where
  valid : ∀ x ∈ inFlight, ValidPayload x
  encoded : (net.port r).rxFifo.contents ++ (net.line r ++ (net.port s).txQueue.contents) =
    inFlight.flatMap encode
  payloads : got ++ (net.port r).rxQueue.contents ++ inFlight.flatten = sent.flatten

/-- What the receiver has staged so far, `stream`, and what is on its way there are the encodings of
all packets accepted. -/
structure Streamed (net : Network κ) (s r : Endpoint κ) (sent : List (List UInt8))
    (got stream : List UInt8) : Prop where
  valid : ∀ x ∈ sent, ValidPayload x
  received : (net.port r).Received stream got
  encoded : stream ++ (net.line r ++ (net.port s).txQueue.contents) = sent.flatMap encode

variable {net : Network κ} {s r : Endpoint κ} {sent inFlight : List (List UInt8)}
  {got stream : List UInt8}

/-- The receive path of the driver has taken whole packets off such a stream. -/
theorem Streamed.books (h : Streamed net s r sent got stream) :
    ∃ inFlight, Books net s r sent got inFlight := by
  obtain ⟨hvalid, ⟨os, hsteps, hpayloads⟩, hencoded⟩ := h
  obtain ⟨taken, left, rfl, rfl, hleft⟩ := steps_aligned hvalid hencoded hsteps
  refine ⟨left, fun x hx => hvalid x (List.mem_append_right _ hx), hleft, ?_⟩
  rw [hpayloads, reduceOption_map_some, List.flatten_append]

/-- The payloads in flight fit `rx_queue` when no more are owed than it can hold. -/
theorem Books.fits (h : Books net s r sent got inFlight) (hsized : (net.port r).Sized)
    (howed : sent.flatten.length ≤ got.length + ringBufferStorageCapacity) :
    inFlight.flatten.length ≤ (net.port r).rxQueue.room := by
  have hbooks := congrArg List.length h.payloads
  have := hsized.rxQueue
  simp only [List.length_append] at hbooks
  unfold Ring.room
  omega

/-- A pass over the front of encodings cuts no payload when all of them fit. -/
theorem neverShort_aligned {fifo rest : List UInt8} {ds : List (List UInt8)} {room : Nat}
    (hds : ∀ d ∈ ds, ValidPayload d) (hstream : fifo ++ rest = ds.flatMap encode)
    (hfits : ds.flatten.length ≤ room) : NeverShort fifo room := by
  intro ds' d fifo' hsteps _
  rw [← List.map_singleton, ← List.map_append] at hsteps
  obtain ⟨taken, left, rfl, htaken, -⟩ := steps_aligned hds hstream hsteps
  obtain rfl : ds' ++ [d] = taken := List.map_injective_iff.2 (Option.some_injective _) htaken
  simp only [List.flatten_append, List.length_append, List.flatten_singleton] at hfits
  omega

variable [DecidableEq κ]

/-! ## What an event does to a line -/

/-- The bytes that an event sends from an endpoint. -/
def emittedAt (s : Endpoint κ) (x : κ × Event) : List UInt8 :=
  if x.1 = s.board then x.2.emitted s.port else []

/-- The bytes that an event stages at an endpoint. -/
def stagedAt (r : Endpoint κ) (x : κ × Event) : List UInt8 :=
  if x.1 = r.board then x.2.staged r.port else []

/-- The wiring: the endpoint whose transmitter an endpoint hears. -/
abbrev Wiring (κ : Type) := Endpoint κ → Option (Endpoint κ)

/-- The bytes that an event sends towards an endpoint. -/
def Wiring.arriving (hears : Wiring κ) (r : Endpoint κ) (x : κ × Event) : List UInt8 :=
  match hears r with
  | some s => emittedAt s x
  | none => []

/-- What an event stages on a wired port is the front of what its line brings. -/
def Network.Carries (hears : Wiring κ) (net : Network κ) (x : κ × Event) : Prop :=
  ∀ r s, hears r = some s → stagedAt r x <+: net.line r ++ emittedAt s x

theorem arriving_eq {hears : Wiring κ} (h : hears r = some s) (x : κ × Event) :
    hears.arriving r x = emittedAt s x := by
  rw [Wiring.arriving, h]

theorem emittedAt_nil (k : κ) {e : Event} (h : e.emitted s.port = []) :
    emittedAt s (k, e) = [] := by
  unfold emittedAt
  split_ifs
  · exact h
  · rfl

/-- The network after an event: its board is in its new state, and the lines carry on what was sent
and not yet staged. -/
def Network.after (hears : Wiring κ) (net : Network κ) (x : κ × Event) : Network κ where
  boards := Function.update net.boards x.1 x.2.after
  line r := (net.line r ++ hears.arriving r x).drop (stagedAt r x).length

variable {hears : Wiring κ} {start : Network κ}

theorem port_after_self (net : Network κ) (r : Endpoint κ) (e : Event) :
    (net.after hears (r.board, e)).port r = e.after.ports r.port := by
  rw [Network.port, Network.after]
  dsimp only
  rw [Function.update_self]

theorem port_after_of_ne (net : Network κ) {k : κ} {r : Endpoint κ} (h : k ≠ r.board)
    (e : Event) : (net.after hears (k, e)).port r = net.port r := by
  rw [Network.port, Network.after]
  dsimp only
  rw [Function.update_of_ne h.symm]
  rfl

/-! ## Runs -/

/-- A joint run of the boards, in which each makes calls of an application on the hardware path. -/
inductive NetRun (hears : Wiring κ) (start : Network κ) :
    List (κ × Event) → Network κ → Prop
  | nil : NetRun hears start [] start
  | snoc {es : List (κ × Event)} {net : Network κ} (h : NetRun hears start es net) (k : κ)
      (m : DeviceMemory) (c : Call) (hc : c.IsService)
      (hline : net.Carries hears (net.event k m c)) :
      NetRun hears start (es ++ [net.event k m c])
        (net.after hears (net.event k m c))

/-- The events of a board, in their order. -/
def onBoard (k : κ) (es : List (κ × Event)) : List Event :=
  es.flatMap fun x => if x.1 = k then [x.2] else []

/-- The packets accepted for transmission at an endpoint. -/
def sentAt (s : Endpoint κ) (es : List (κ × Event)) : List (List UInt8) :=
  accepted Call.sends s.port (onBoard s.board es)

/-- The payload bytes returned at an endpoint. -/
def gotAt (r : Endpoint κ) (es : List (κ × Event)) : List UInt8 :=
  returned Call.takes r.port (onBoard r.board es)

theorem onBoard_append (k : κ) (es es' : List (κ × Event)) :
    onBoard k (es ++ es') = onBoard k es ++ onBoard k es' :=
  List.flatMap_append

theorem sentAt_append (s : Endpoint κ) (es es' : List (κ × Event)) :
    sentAt s (es ++ es') = sentAt s es ++ sentAt s es' := by
  rw [sentAt, onBoard_append]
  exact List.flatMap_append

theorem gotAt_append (r : Endpoint κ) (es es' : List (κ × Event)) :
    gotAt r (es ++ es') = gotAt r es ++ gotAt r es' := by
  rw [gotAt, onBoard_append]
  exact List.flatMap_append

theorem onBoard_self (k : κ) (e : Event) : onBoard k [(k, e)] = [e] := by
  rw [onBoard, List.flatMap_singleton, if_pos rfl]

theorem onBoard_other {k k' : κ} (h : k' ≠ k) (e : Event) : onBoard k [(k', e)] = [] := by
  rw [onBoard, List.flatMap_singleton, if_neg h]

/-- **The events of one board are a run of its driver.** -/
theorem NetRun.onBoard {es : List (κ × Event)} (h : NetRun hears start es net) (k : κ) :
    Run Call.IsService (start.boards k) (onBoard k es) (net.boards k) := by
  induction h with
  | nil => exact .nil
  | @snoc es net _ k' m c hc _ ih =>
    rw [Xr17v358.onBoard, List.flatMap_append]
    show Run _ _ (Xr17v358.onBoard k es ++ Xr17v358.onBoard k [(k', Event.mk (net.boards k') m c)])
      (Function.update net.boards k' _ k)
    by_cases hk : k' = k
    · subst hk
      rw [onBoard_self, Function.update_self]
      exact ih.snoc m c hc
    · rw [onBoard_other hk, List.append_nil, Function.update_of_ne (Ne.symm hk)]
      exact ih

/-- Boards just after a reset, and nothing on the lines. -/
structure Network.Fresh (net : Network κ) : Prop where
  boards : ∀ k, FreshlyReset (net.boards k)
  line : ∀ r, net.line r = []

theorem NetRun.ready {es : List (κ × Event)} (h : NetRun hears start es net)
    (hstart : start.Fresh) (k : κ) : (net.boards k).Ready :=
  (h.onBoard k).ready (hstart.boards k).ready

/-- What the receiver decodes is the front of the encodings in flight. -/
theorem Books.decodes (h : Books net s r sent got inFlight) (hwired : hears r = some s)
    {m : DeviceMemory} {c : Call} (hline : net.Carries hears (net.event r.board m c)) {port : Port}
    (hport : port ∈ (Event.mk (net.boards r.board) m c).decodes r.port) :
    port.rxQueue = (net.port r).rxQueue ∧
      (net.port r).rxFifo.contents <+: port.rxFifo.contents ∧
      ∃ rest, port.rxFifo.contents ++ rest = inFlight.flatMap encode := by
  obtain ⟨hfifo, hqueue, hflushes⟩ := Event.decodes_spec hport
  have hemitted : (Event.mk (net.boards r.board) m c).emitted s.port = [] := by
    rw [Event.emitted, hflushes]
  have hstaged := hline r s hwired
  rw [Network.event, stagedAt, if_pos rfl, emittedAt_nil r.board hemitted, List.append_nil]
    at hstaged
  obtain ⟨rest, hrest⟩ := hstaged
  have hencoded := h.encoded
  rw [← hrest, List.append_assoc, ← List.append_assoc] at hencoded
  rw [hfifo]
  exact ⟨hqueue, List.prefix_append .., _, hencoded⟩

/-- So no call of the receiver cuts a payload. -/
theorem Books.roomy (h : Books net s r sent got inFlight)
    (hfits : inFlight.flatten.length ≤ (net.port r).rxQueue.room) (hwired : hears r = some s)
    {m : DeviceMemory} {c : Call} (hline : net.Carries hears (net.event r.board m c)) :
    (Event.mk (net.boards r.board) m c).Roomy r.port := by
  intro port hport
  obtain ⟨hqueue, -, rest, hencoded⟩ := h.decodes hwired hline hport
  rw [hqueue]
  exact neverShort_aligned h.valid hencoded hfits

/-! ## One event -/

/-- What an event does to the sender of a link. -/
theorem sent_step (hready : ∀ k, (net.boards k).Ready) (k : κ) (m : DeviceMemory) {c : Call}
    (hc : c.IsService) (s : Endpoint κ) :
    (∀ x ∈ sentAt s [net.event k m c], ValidPayload x) ∧
      emittedAt s (net.event k m c) ++
          ((net.after hears (net.event k m c)).port s).txQueue.contents =
        (net.port s).txQueue.contents ++
          (sentAt s [net.event k m c]).flatMap encode := by
  unfold Network.event
  by_cases hk : k = s.board
  · subst hk
    obtain ⟨hvalid, hconserved⟩ := service_transmits (hready s.board) m hc s.port
    rw [sentAt, onBoard_self, emittedAt, if_pos rfl, port_after_self]
    exact ⟨hvalid, hconserved⟩
  · rw [sentAt, onBoard_other hk, emittedAt, if_neg hk, port_after_of_ne net hk]
    exact ⟨by simp [accepted], by simp [accepted]⟩

/-- What an event does to the receiver of a link. -/
theorem got_step (hready : ∀ k, (net.boards k).Ready) (k : κ) (m : DeviceMemory) {c : Call}
    (hc : c.IsService) (h : (net.port r).Received stream got)
    (hroomy : k = r.board → (Event.mk (net.boards k) m c).Roomy r.port) :
    ((net.after hears (net.event k m c)).port r).Received
      (stream ++ stagedAt r (net.event k m c))
      (got ++ gotAt r [net.event k m c]) := by
  unfold Network.event
  by_cases hk : k = r.board
  · subst hk
    rw [gotAt, onBoard_self, stagedAt, if_pos rfl, port_after_self]
    exact service_receives (hready r.board) m hc h (hroomy rfl)
  · rw [gotAt, onBoard_other hk, stagedAt, if_neg hk, port_after_of_ne net hk, List.append_nil]
    simpa [returned] using h

/-- **An event keeps the streams of a link aligned.** -/
theorem Streamed.step (h : Streamed net s r sent got stream) (hready : ∀ k, (net.boards k).Ready)
    (hwired : hears r = some s)
    (howed : sent.flatten.length ≤ got.length + ringBufferStorageCapacity) (k : κ)
    (m : DeviceMemory) {c : Call} (hc : c.IsService)
    (hline : net.Carries hears (net.event k m c)) :
    Streamed (net.after hears (net.event k m c)) s r
      (sent ++ sentAt s [net.event k m c])
      (got ++ gotAt r [net.event k m c])
      (stream ++ stagedAt r (net.event k m c)) := by
  obtain ⟨hsent, hqueue⟩ := @sent_step _ net _ hears hready k m _ hc s
  obtain ⟨inFlight, hbooks⟩ := h.books
  have hfits := hbooks.fits ((hready r.board).sized r.port) howed
  refine ⟨List.forall_mem_append.2 ⟨h.valid, hsent⟩, ?_, ?_⟩
  · refine got_step hready k m hc h.received ?_
    rintro rfl
    exact hbooks.roomy hfits hwired hline
  · obtain ⟨rest, hrest⟩ := hline r s hwired
    have hafter : (net.after hears (net.event k m c)).line r = rest := by
      show (net.line r ++ hears.arriving r _).drop _ = rest
      rw [arriving_eq hwired, ← hrest, List.drop_left]
    rw [hafter, List.append_assoc, ← List.append_assoc _ rest, hrest, List.append_assoc, hqueue,
      ← List.append_assoc _ _ (List.flatMap _ _), ← List.append_assoc, h.encoded,
      List.flatMap_append]

/-! ## Runs -/

/-- At every moment no more bytes are owed to the receiver than `rx_queue` can hold. -/
def Windowed (s r : Endpoint κ) (es : List (κ × Event)) : Prop :=
  ∀ es', es' <+: es →
    (sentAt s es').flatten.length ≤ (gotAt r es').length + ringBufferStorageCapacity

theorem Windowed.of_append {es es' : List (κ × Event)} (h : Windowed s r (es ++ es')) :
    Windowed s r es :=
  fun _ hpre => h _ (hpre.trans (List.prefix_append ..))

theorem streamed_of_run (hstart : start.Fresh) (hwired : hears r = some s)
    (hrun : NetRun hears start es net) (hwindow : Windowed s r es) :
    Streamed net s r (sentAt s es) (gotAt r es) (es.flatMap (stagedAt r)) := by
  induction hrun with
  | nil =>
    obtain ⟨-, hfifo, -, -, hqueue⟩ := (hstart.boards r.board).contents r.port
    obtain ⟨-, -, -, htx, -⟩ := (hstart.boards s.board).contents s.port
    refine ⟨by simp [sentAt, onBoard, accepted], ⟨[], ?_, ?_⟩, ?_⟩
    · rw [Network.port, hfifo]
      exact .refl []
    · simp [Network.port, hqueue, gotAt, onBoard, returned]
    · simp [Network.port, htx, hstart.line, sentAt, onBoard, accepted]
  | @snoc es net hprev k m c hc hline ih =>
    rw [sentAt_append, gotAt_append, List.flatMap_append, List.flatMap_singleton]
    exact (ih hwindow.of_append).step (hprev.ready hstart) hwired
      (hwindow es (List.prefix_append ..)) k m hc hline

/-- What an event does to the pipe between two endpoints. -/
def pipeActions (s r : Endpoint κ) (x : κ × Event) : List (Pipe.Action UInt8) :=
  [.put (sentAt s [x]).flatten, .take (gotAt r [x])]

theorem puts_pipeActions (s r : Endpoint κ) (es : List (κ × Event)) :
    Pipe.puts (es.flatMap (pipeActions s r)) = (sentAt s es).flatten := by
  induction es with
  | nil => rfl
  | cons x es ih =>
    rw [List.flatMap_cons, Pipe.puts_append, ih, ← List.singleton_append, sentAt_append,
      List.flatten_append]
    simp [pipeActions, Pipe.puts]

theorem takes_pipeActions (s r : Endpoint κ) (es : List (κ × Event)) :
    Pipe.takes (es.flatMap (pipeActions s r)) = gotAt r es := by
  induction es with
  | nil => rfl
  | cons x es ih =>
    rw [List.flatMap_cons, Pipe.takes_append, ih, ← List.singleton_append (l := es), gotAt_append]
    simp [pipeActions, Pipe.takes]

theorem pipe_of_run (hstart : start.Fresh) (hwired : hears r = some s)
    (hrun : NetRun hears start es net) (hwindow : Windowed s r es) :
    ∃ inFlight, Books net s r (sentAt s es) (gotAt r es) inFlight ∧
      Pipe.Run (es.flatMap (pipeActions s r))
        ((net.port r).rxQueue.contents ++ inFlight.flatten) := by
  induction hrun with
  | nil =>
    obtain ⟨inFlight, hbooks⟩ := (streamed_of_run hstart hwired .nil hwindow).books
    have hkept := hbooks.payloads
    rw [List.append_assoc] at hkept
    have hnone : (sentAt s []).flatten = [] := rfl
    obtain ⟨-, hnil⟩ := List.append_eq_nil_iff.1 (hkept.trans hnone)
    refine ⟨inFlight, hbooks, ?_⟩
    rw [hnil]
    exact .nil
  | @snoc es net hprev k m c hc hline ih =>
    obtain ⟨before, hbefore, hpipe⟩ := ih hwindow.of_append
    obtain ⟨inFlight, hbooks⟩ :=
      (streamed_of_run hstart hwired (hprev.snoc k m c hc hline) hwindow).books
    refine ⟨inFlight, hbooks, ?_⟩
    have hkept := hbooks.payloads
    rw [sentAt_append, gotAt_append, List.flatten_append, ← hbefore.payloads] at hkept
    simp only [List.append_assoc, List.append_cancel_left_eq] at hkept
    have hput := hpipe.put (sentAt s [net.event k m c]).flatten
    rw [List.append_assoc, ← hkept] at hput
    have htake := hput.take
    rw [List.append_assoc] at htake
    rw [List.flatMap_append, List.flatMap_singleton]
    exact htake

/-- **A link is a pipe.** From freshly reset boards on, in any interleaving of the applications' calls
on the hardware path, with any device behaviour and any delays on the lines, as long as no more is
owed to the receiver than `rx_queue` can hold: what the sender accepts and the receiver returns are
the actions of a pipe, which keeps the decoded bytes and the payloads of the packets in flight. So at
every moment what was returned is a front of what was accepted. -/
theorem link_refines_pipe (hstart : start.Fresh) (hwired : hears r = some s)
    (hrun : NetRun hears start es net) (hwindow : Windowed s r es) :
    (∃ inFlight, Books net s r (sentAt s es) (gotAt r es) inFlight ∧
      Pipe.Run (es.flatMap (pipeActions s r))
        ((net.port r).rxQueue.contents ++ inFlight.flatten)) ∧
    ∀ es', es' <+: es → gotAt r es' <+: (sentAt s es').flatten := by
  obtain ⟨inFlight, hbooks, hpipe⟩ := pipe_of_run hstart hwired hrun hwindow
  refine ⟨⟨inFlight, hbooks, hpipe⟩, ?_⟩
  rintro es' ⟨rest, rfl⟩
  have hpre : es'.flatMap (pipeActions s r) <+: (es' ++ rest).flatMap (pipeActions s r) :=
    ⟨rest.flatMap (pipeActions s r), List.flatMap_append.symm⟩
  have hfront := hpipe.taken_prefix hpre
  rwa [takes_pipeActions, puts_pipeActions] at hfront

/-- Two boards, the first wired to the second port by port. -/
def twoBoards : Wiring Bool := fun r => if r.board then some ⟨false, r.port⟩ else none

/-- A device whose port 0 has room to transmit. -/
def deviceWithRoom : DeviceMemory where
  mem addr := if addr = registerAddress 0 0 regTxlvl then 255 else 0
  upcoming _ := []

theorem link_refines_pipe_twoBoards : ∃ es net,
    NetRun twoBoards ⟨fun _ => resetState .zero, fun _ => []⟩ es net ∧
      gotAt ⟨true, 0⟩ es = [1] ∧ gotAt ⟨true, 0⟩ es <+: (sentAt ⟨false, 0⟩ es).flatten := by
  have hrun : NetRun twoBoards ⟨fun _ => resetState .zero, fun _ => []⟩ [] _ := .nil
  have hwrite := hrun.snoc false deviceWithRoom (.writeHw (some 0) 0 (.bytes [1]) .valid) trivial
    (by
      rintro ⟨_ | _, q⟩ s hs
      · simp [twoBoards] at hs
      · exact List.nil_prefix)
  have hread := hwrite.snoc true (deviceHolding [0x7E, 1, 0x7E])
    (.readHw (some 0) 0 ⟨.valid, 1⟩ .valid) trivial
    (by
      rintro ⟨_ | _, q⟩ s hs
      · simp [twoBoards] at hs
      · obtain rfl := Option.some.inj hs
        clear hs
        revert q
        decide +kernel)
  have hwired : twoBoards ⟨true, 0⟩ = some ⟨false, 0⟩ := rfl
  have hlink := link_refines_pipe ⟨fun _ => ⟨.zero, .inl rfl⟩, fun _ => rfl⟩ hwired hread
    fun es' hpre => forall_prefix (P := fun es =>
      (sentAt (⟨false, 0⟩ : Endpoint Bool) es).flatten.length ≤
        (gotAt (⟨true, 0⟩ : Endpoint Bool) es).length + ringBufferStorageCapacity)
      (by decide +kernel) hpre
  exact ⟨_, _, hread, by decide +kernel, hlink.2 _ List.prefix_rfl⟩

end Xr17v358
