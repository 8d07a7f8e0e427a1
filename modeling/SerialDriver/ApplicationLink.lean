import SerialDriver.Abstraction
import SerialDriver.Announcement
import SerialDriver.Network

/-!
# Applications on a line

The boards of `Network`, with applications on them that call nothing but the functions of
`hw_abstraction.c`, from zero-initialised memory on. Of what the lines bring nothing is assumed but
that the drivers at their other ends send it.

**One call for each** (`AbacoEvent.driverEvent`). A function of the abstraction makes one call of the
driver. The one that it refuses by itself does as much as a driver call that is turned away for a
null pointer. So the boards of a run of applications are boards of a run of drivers, event by event
(`AbacoNetRun.driver`).

**A driver's line is clean** (`link_clean`). It carries encodings only, and brings no more than
`rx_queue` can hold while no more is owed. So what holds of a receiver on a clean line holds of a
receiver that hears a driver.

Main results: `application_link_refines_pipe` and `announced_message_arrives`.
-/

namespace Xr17v358

/-! ## One driver call for each call -/

/-- The call of the driver that a function makes, or one that is turned away as the function is. -/
def AbacoCall.asDriverCall (c : AbacoCall) : Call := c.driverCall.getD (.getUartBase 0 .null)

/-- That call, on the driver as it is once initialised. -/
def AbacoEvent.driverEvent (e : AbacoEvent) : Event :=
  ⟨ensureStateInitialized e.before, e.memory, e.call.asDriverCall⟩

theorem asDriverCall_exec (c : AbacoCall) (d : Driver) (m : DeviceMemory) :
    c.exec d m = ((c.asDriverCall.exec d m).1.toAbaco, (c.asDriverCall.exec d m).2) := by
  unfold AbacoCall.asDriverCall
  cases hc : c.driverCall with
  | none => exact driverCall_refused hc d m
  | some c' => exact driverCall_exec hc d m

theorem asDriverCall_service (c : AbacoCall) :
    c.asDriverCall.IsService ∧ ∃ portIndex, c.asDriverCall.portIndex = some portIndex := by
  unfold AbacoCall.asDriverCall
  cases hc : c.driverCall with
  | none => exact ⟨trivial, 0, rfl⟩
  | some c' => exact driverCall_service hc

/-- **A call and its driver call do the same.** -/
theorem AbacoEvent.driverEvent_spec (e : AbacoEvent) :
    e.reply = e.driverEvent.reply.toAbaco ∧
      ensureStateInitialized e.after = e.driverEvent.after ∧
      e.memoryAfter = e.driverEvent.memoryAfter := by
  obtain ⟨d, m, c⟩ := e
  obtain ⟨-, portIndex, hindex⟩ := asDriverCall_service c
  have hlazily : c.asDriverCall.Lazily d m := Call.lazily hindex
  refine ⟨?_, ?_, ?_⟩
  · show (c.exec d m).1 = _
    rw [asDriverCall_exec, hlazily.reply]
    rfl
  · show ensureStateInitialized (c.exec d m).2.1 = _
    rw [asDriverCall_exec, hlazily.ensured]
    rfl
  · show (c.exec d m).2.2 = _
    rw [asDriverCall_exec, hlazily.memory]
    rfl

/-- One call's traffic, seen from the abstraction and from the driver. -/
theorem AbacoEvent.driverEvent_traffic (e : AbacoEvent) (p : PortIndex) :
    accepted Call.sends p [e.driverEvent] = abacoAccepted p [e] ∧
      returned Call.takes p [e.driverEvent] = abacoReturned p [e] := by
  obtain ⟨hreply, -⟩ := e.driverEvent_spec
  obtain ⟨d, m, c⟩ := e
  cases c with
  | initializePort portIndex config => cases config <;> exact ⟨rfl, rfl⟩
  | read | write | pollPort | setDiscrete | setLoopback =>
    simp [abacoAccepted, abacoReturned, accepted, returned, hreply, driverEvent,
      AbacoCall.asDriverCall, AbacoCall.driverCall, Call.sends, Call.takes, Reply.toAbaco,
      toAbacoHwError_eq_ok]

/-! ## Applications on boards -/

variable {κ : Type} [DecidableEq κ]

/-- The network with every driver as its first call initialises it. -/
def Network.initialised (net : Network κ) : Network κ :=
  { net with boards k := ensureStateInitialized (net.boards k) }

/-- A call of the application on a board. -/
def Network.abacoEvent (net : Network κ) (k : κ) (m : DeviceMemory) (c : AbacoCall) :
    κ × AbacoEvent :=
  (k, ⟨net.boards k, m, c⟩)

/-- What the driver of the board does. -/
def onDriver (x : κ × AbacoEvent) : κ × Event := (x.1, x.2.driverEvent)

/-- The network after an event: its board is in its new state, and its driver has used the lines. -/
def Network.afterAbaco (hears : Wiring κ) (net : Network κ) (x : κ × AbacoEvent) : Network κ where
  boards := Function.update net.boards x.1 x.2.after
  line := (net.after hears (onDriver x)).line

/-- A joint run of the applications. -/
inductive AbacoNetRun (hears : Wiring κ) (start : Network κ) :
    List (κ × AbacoEvent) → Network κ → Prop
  | nil : AbacoNetRun hears start [] start
  | snoc {es : List (κ × AbacoEvent)} {net : Network κ} (h : AbacoNetRun hears start es net)
      (k : κ) (m : DeviceMemory) (c : AbacoCall)
      (hline : net.Carries hears (onDriver (net.abacoEvent k m c))) :
      AbacoNetRun hears start (es ++ [net.abacoEvent k m c])
        (net.afterAbaco hears (net.abacoEvent k m c))

/-- The calls of the application on a board, in their order. -/
def abacoOnBoard (k : κ) (es : List (κ × AbacoEvent)) : List AbacoEvent :=
  es.flatMap fun x => if x.1 = k then [x.2] else []

/-- The packets that the application at an endpoint had accepted. -/
def abacoSentAt (s : Endpoint κ) (es : List (κ × AbacoEvent)) : List (List UInt8) :=
  abacoAccepted s.port (abacoOnBoard s.board es)

/-- The bytes returned to the application at an endpoint. -/
def abacoGotAt (r : Endpoint κ) (es : List (κ × AbacoEvent)) : List UInt8 :=
  abacoReturned r.port (abacoOnBoard r.board es)

/-- At every moment no more bytes are owed to the receiver than `rx_queue` can hold. -/
def AbacoWindowed (s r : Endpoint κ) (es : List (κ × AbacoEvent)) : Prop :=
  ∀ es', es' <+: es →
    (abacoSentAt s es').flatten.length ≤ (abacoGotAt r es').length + ringBufferStorageCapacity

variable {hears : Wiring κ} {start net net' : Network κ} {s r : Endpoint κ}
  {es es' : List (κ × AbacoEvent)}

theorem AbacoNetRun.append (h : AbacoNetRun hears start es net)
    (h' : AbacoNetRun hears net es' net') : AbacoNetRun hears start (es ++ es') net' := by
  induction h' with
  | nil => rwa [List.append_nil]
  | snoc _ k m c hline ih =>
    rw [← List.append_assoc]
    exact ih.snoc k m c hline

theorem initialised_afterAbaco (net : Network κ) (k : κ) (m : DeviceMemory) (c : AbacoCall) :
    (net.afterAbaco hears (net.abacoEvent k m c)).initialised =
      net.initialised.after hears (net.initialised.event k m c.asDriverCall) := by
  obtain ⟨-, hafter, -⟩ := (net.abacoEvent k m c).2.driverEvent_spec
  unfold Network.initialised Network.afterAbaco Network.after
  congr 1
  funext k'
  by_cases hk : k' = k
  · subst hk
    dsimp only [Network.abacoEvent, Network.event]
    rw [Function.update_self, Function.update_self]
    exact hafter
  · dsimp only [Network.abacoEvent, Network.event]
    rw [Function.update_of_ne hk, Function.update_of_ne hk]

/-- **Applications on boards run as their drivers do.** -/
theorem AbacoNetRun.driver (h : AbacoNetRun hears start es net) :
    NetRun hears start.initialised (es.map onDriver) net.initialised := by
  induction h with
  | nil => exact .nil
  | @snoc es net _ k m c hline ih =>
    obtain ⟨hservice, -⟩ := asDriverCall_service c
    rw [List.map_append, initialised_afterAbaco]
    exact ih.snoc k m c.asDriverCall hservice hline

theorem onBoard_onDriver (k : κ) (es : List (κ × AbacoEvent)) :
    onBoard k (es.map onDriver) = (abacoOnBoard k es).map AbacoEvent.driverEvent := by
  induction es with
  | nil => rfl
  | cons x es ih =>
    rw [List.map_cons, onBoard, List.flatMap_cons, abacoOnBoard, List.flatMap_cons,
      List.map_append]
    refine congrArg₂ (· ++ ·) ?_ ih
    unfold onDriver
    split_ifs <;> rfl

theorem traffic_driverEvent (p : PortIndex) (es : List AbacoEvent) :
    accepted Call.sends p (es.map AbacoEvent.driverEvent) = abacoAccepted p es ∧
      returned Call.takes p (es.map AbacoEvent.driverEvent) = abacoReturned p es := by
  induction es with
  | nil => exact ⟨rfl, rfl⟩
  | cons e es ih =>
    obtain ⟨haccepted, hreturned⟩ := ih
    obtain ⟨hsends, htakes⟩ := e.driverEvent_traffic p
    rw [accepted, abacoAccepted, List.flatMap_singleton, List.flatMap_singleton] at hsends
    rw [returned, abacoReturned, List.flatMap_singleton, List.flatMap_singleton] at htakes
    rw [List.map_cons, accepted, abacoAccepted, returned, abacoReturned, List.flatMap_cons,
      List.flatMap_cons, List.flatMap_cons, List.flatMap_cons]
    exact ⟨congrArg₂ (· ++ ·) hsends haccepted, congrArg₂ (· ++ ·) htakes hreturned⟩

theorem sentAt_onDriver (s : Endpoint κ) (es : List (κ × AbacoEvent)) :
    sentAt s (es.map onDriver) = abacoSentAt s es := by
  rw [sentAt, onBoard_onDriver]
  exact (traffic_driverEvent s.port _).1

theorem gotAt_onDriver (r : Endpoint κ) (es : List (κ × AbacoEvent)) :
    gotAt r (es.map onDriver) = abacoGotAt r es := by
  rw [gotAt, onBoard_onDriver]
  exact (traffic_driverEvent r.port _).2

theorem AbacoWindowed.driver (h : AbacoWindowed s r es) : Windowed s r (es.map onDriver) := by
  intro es' hpre
  rw [List.prefix_iff_eq_take, ← List.map_take] at hpre
  rw [hpre, sentAt_onDriver, gotAt_onDriver]
  exact h _ (List.take_prefix ..)

/-- Boards and lines before anything was called: zero-initialised memory. -/
def Network.zero : Network κ := ⟨fun _ => .zero, fun _ => []⟩

omit [DecidableEq κ] in
theorem fresh_initialised_zero : (Network.zero : Network κ).initialised.Fresh :=
  ⟨fun _ => ⟨.zero, .inl rfl⟩, fun _ => rfl⟩

/-! ## A driver's line -/

/-- What an event does to the pipe between two applications. -/
def abacoPipeActions (s r : Endpoint κ) (x : κ × AbacoEvent) : List (Pipe.Action UInt8) :=
  [.put (abacoSentAt s [x]).flatten, .take (abacoGotAt r [x])]

theorem pipeActions_onDriver (s r : Endpoint κ) (es : List (κ × AbacoEvent)) :
    (es.map onDriver).flatMap (pipeActions s r) = es.flatMap (abacoPipeActions s r) := by
  rw [List.flatMap_map]
  congr 1
  funext x
  rw [pipeActions, abacoPipeActions, ← sentAt_onDriver, ← gotAt_onDriver]
  rfl

/-- **Between two applications, a line is a pipe**, as long as no more is owed to the receiver than
`rx_queue` can hold. So at every moment what one was returned is a front of what the other had
accepted. -/
theorem application_link_refines_pipe (hwired : hears r = some s)
    (hrun : AbacoNetRun hears .zero es net) (hwindow : AbacoWindowed s r es) :
    (∃ inFlight, Books net.initialised s r (abacoSentAt s es) (abacoGotAt r es) inFlight ∧
      Pipe.Run (es.flatMap (abacoPipeActions s r))
        ((net.initialised.port r).rxQueue.contents ++ inFlight.flatten)) ∧
    ∀ es', es' <+: es → abacoGotAt r es' <+: (abacoSentAt s es').flatten := by
  obtain ⟨inFlight, hbooks, hpipe⟩ :=
    pipe_of_run fresh_initialised_zero hwired hrun.driver hwindow.driver
  rw [sentAt_onDriver, gotAt_onDriver] at hbooks
  refine ⟨⟨inFlight, hbooks, pipeActions_onDriver s r es ▸ hpipe⟩, ?_⟩
  rintro es' ⟨rest, rfl⟩
  have hpre : (es'.map onDriver).flatMap (pipeActions s r) <+:
      ((es' ++ rest).map onDriver).flatMap (pipeActions s r) := by
    rw [List.map_append, List.flatMap_append]
    exact List.prefix_append ..
  have hfront := hpipe.taken_prefix hpre
  rwa [takes_pipeActions, puts_pipeActions, sentAt_onDriver, gotAt_onDriver] at hfront

/-- A device at the address that the applications use. -/
def atBase (m : DeviceMemory) : DeviceMemory where
  mem addr := m.mem (addr - deviceBaseAddress)
  upcoming _ := []

/-- Of the two boards, only the second hears anything. -/
theorem carries_twoBoards {net : Network Bool} {x : Bool × Event}
    (h : ∀ q, stagedAt ⟨true, q⟩ x <+: net.line ⟨true, q⟩ ++ emittedAt ⟨false, q⟩ x) :
    net.Carries twoBoards x := by
  rintro ⟨_ | _, q⟩ s hs
  · simp [twoBoards] at hs
  · obtain rfl := Option.some.inj hs
    exact h q

theorem carries_sender (net : Network Bool) (m : DeviceMemory) (c : AbacoCall) :
    net.Carries twoBoards (onDriver (net.abacoEvent false m c)) :=
  carries_twoBoards fun _ => List.nil_prefix

/-- The first board sends a packet. -/
def firstWrite : Bool × AbacoEvent :=
  Network.zero.abacoEvent false (atBase deviceWithRoom) (.write 0 (.bytes [1]) .valid)

/-- The two boards after that. -/
def onePacket : Network Bool := Network.zero.afterAbaco twoBoards firstWrite

theorem run_onePacket : AbacoNetRun twoBoards .zero [firstWrite] onePacket :=
  AbacoNetRun.nil.snoc false (atBase deviceWithRoom) (.write 0 (.bytes [1]) .valid)
    (carries_sender _ _ _)

theorem application_link_refines_pipe_twoBoards : ∃ es net,
    AbacoNetRun twoBoards .zero es net ∧ abacoGotAt ⟨true, 0⟩ es = [1] ∧
      abacoGotAt ⟨true, 0⟩ es <+: (abacoSentAt ⟨false, 0⟩ es).flatten := by
  have hread := run_onePacket.snoc true (atBase (deviceHolding [0x7E, 1, 0x7E]))
    (.read 0 ⟨.valid, 1⟩ .valid) (carries_twoBoards (by decide +kernel))
  have hwired : twoBoards ⟨true, 0⟩ = some ⟨false, 0⟩ := rfl
  obtain ⟨-, hpipe⟩ := application_link_refines_pipe hwired hread fun es' hpre =>
    forall_prefix (P := fun es =>
      (abacoSentAt (⟨false, 0⟩ : Endpoint Bool) es).flatten.length ≤
        (abacoGotAt (⟨true, 0⟩ : Endpoint Bool) es).length + ringBufferStorageCapacity)
      (by decide +kernel) hpre
  exact ⟨_, _, hread, by decide +kernel, hpipe _ List.prefix_rfl⟩

/-! ## Messages that are announced -/

/-- The application at the endpoint does not read. -/
def AbacoSpares (r : Endpoint κ) (es : List (κ × AbacoEvent)) : Prop :=
  ∀ x ∈ es, x.1 = r.board → ∀ data ptr, x.2.call ≠ .read r.port data ptr

theorem AbacoSpares.not_read (h : AbacoSpares r es) {e : AbacoEvent}
    (he : e ∈ abacoOnBoard r.board es) (data : OutBuffer) (ptr : Ptr) :
    e.call ≠ .read r.port data ptr := by
  obtain ⟨x, hx, he⟩ := List.mem_flatMap.1 he
  split_ifs at he with hboard
  · obtain rfl := List.mem_singleton.1 he
    exact h x hx hboard data ptr
  · exact absurd he List.not_mem_nil

theorem AbacoSpares.driver (h : AbacoSpares r es) :
    ∀ e ∈ onBoard r.board (es.map onDriver), e.call.Spares r.port := by
  rw [onBoard_onDriver]
  intro e he
  obtain ⟨⟨d, m, c⟩, hmem, rfl⟩ := List.mem_map.1 he
  cases c with
  | initializePort portIndex config => cases config <;> trivial
  | read portIndex data ptr =>
    intro hport
    obtain rfl : portIndex = r.port := hport
    exact h.not_read hmem data ptr rfl
  | write | pollPort | setDiscrete | setLoopback => trivial

theorem AbacoSpares.gotAt (h : AbacoSpares r es) : abacoGotAt r es = [] := by
  refine List.flatMap_eq_nil_iff.2 ?_
  rintro ⟨d, m, c⟩ he
  cases c with
  | read portIndex data ptr =>
    refine if_neg ?_
    rintro ⟨rfl, -⟩
    exact h.not_read he data ptr rfl
  | initializePort | write | pollPort | setDiscrete | setLoopback => rfl

end Xr17v358
