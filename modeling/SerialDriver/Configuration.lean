import SerialDriver.Abstraction
import SerialDriver.Independence

/-!
# The port configuration

`xr17v358_initialize_port` stores a configuration, `xr17v358_get_port_config` returns it, and the
resets put the default in its place. Nothing else touches it: every other function neither looks at
the configuration of a port nor changes it (`ConfigBlind`).

* `Call.IsData.blind` — no function that works on the rings sees the configuration.
* `portConfig_tracks` — at any moment of any run, a port reports the configuration it accepted last
  since the last reset, and it is a valid one.
-/

namespace Xr17v358

/-! ## Functions blind to the configuration -/

/-- The port with another configuration. -/
def Port.withConfig (port : Port) (config : PortConfig) : Port := { port with config := config }

/-- The function neither looks at the configuration of a port nor changes it. -/
def ConfigBlind {α : Type} (body : Port → α × Port) : Prop :=
  ∀ port config, body (port.withConfig config) = ((body port).1, (body port).2.withConfig config)

theorem ConfigBlind.keeps {α : Type} {body : Port → α × Port} (h : ConfigBlind body)
    (port : Port) : (body port).2.config = port.config :=
  congrArg (fun out => out.2.config) (h port port.config)

section Blind

variable {α β : Type} {body body' : Port → α × Port}

/-- Blind functions compose. -/
theorem ConfigBlind.bind {next : α → Port → β × Port} (h : ConfigBlind body)
    (hnext : ∀ a, ConfigBlind (next a)) :
    ConfigBlind fun port => next (body port).1 (body port).2 := by
  intro port config
  dsimp only
  rw [h, hnext]

/-- A test of the rings may decide between blind functions. -/
theorem ConfigBlind.ite {c : Port → Prop} [DecidablePred c]
    (hc : ∀ port config, c (port.withConfig config) ↔ c port) (h : ConfigBlind body)
    (h' : ConfigBlind body') : ConfigBlind fun port => if c port then body port else body' port := by
  intro port config
  dsimp only
  by_cases hport : c port
  · rw [if_pos hport, if_pos ((hc port config).2 hport), h]
  · rw [if_neg hport, if_neg (mt (hc port config).1 hport), h']

/-- A reply may carry something from outside the port. -/
theorem ConfigBlind.beside (h : ConfigBlind body) (b : β) :
    ConfigBlind fun port => (((body port).1, b), (body port).2) := by
  intro port config
  dsimp only
  rw [h]

end Blind

theorem decodeLoop_blind (portIndex n : Nat) :
    ConfigBlind (decodeRxFifoIntoReadQueueLoop portIndex n) := by
  intro port config
  induction n generalizing port with
  | zero => rfl
  | succ n ih =>
    obtain ⟨txFifo, rxFifo, rxPending, txQueue, rxQueue, config'⟩ := port
    dsimp only [Port.withConfig, decodeRxFifoIntoReadQueueLoop]
    split_ifs
    · rfl
    · rfl
    · rfl
    · exact ih ⟨txFifo, rxFifo.readFrame.2, rxPending, txQueue,
        (rxQueue.writeBytes (decode portIndex rxFifo.readFrame.1.frame).data).2, config'⟩
    · rfl

theorem readFromStagedRx_blind (portIndex length : Nat) :
    ConfigBlind fun port => readFromStagedRx portIndex port length := by
  have hdecode : ConfigBlind fun port => decodeRxFifoIntoReadQueue portIndex port :=
    fun port => decodeLoop_blind portIndex port.rxFifo.size port
  -- What a read does after the decoding pass.
  refine @ConfigBlind.bind _ _ _ (fun error port =>
    if error ≠ .ok then (Reply.code error, port)
    else if port.rxQueue.size = 0 ∧ 0 < port.rxFifo.size then (.code .errorInvalidFrame, port)
    else (.returned (port.rxQueue.readBytes length).1,
      { port with rxQueue := (port.rxQueue.readBytes length).2 })) hdecode ?_
  intro error
  exact .ite (fun _ _ => Iff.rfl) (fun _ _ => rfl)
    (.ite (fun _ _ => Iff.rfl) (fun _ _ => rfl) fun _ _ => rfl)

/-- The part of a modeled poll that moves bytes. -/
theorem pollRings_blind :
    ConfigBlind fun port => stageRxBytesFromPending (flushTxQueueToModeledFifo port).2 := by
  intro port config
  apply Prod.ext
  · rw [(pollPort_body _).1, (pollPort_body _).1]
  · simp only [flushTxQueueToModeledFifo_snd, stageRxBytesFromPending_snd, Port.withConfig]

/-- The device takes no part in it. -/
theorem stageRxBytesFromHw_blind (m : DeviceMemory) (deviceBase : Nat) (p : PortIndex) :
    ConfigBlind fun port => (((stageRxBytesFromHw m deviceBase p port).1,
      (stageRxBytesFromHw m deviceBase p port).2.2),
      (stageRxBytesFromHw m deviceBase p port).2.1) := by
  intro port config
  simp only [stageRxBytesFromHw_eq, stageMemory, stageCount, Port.withConfig]

/-! ## Calls -/

/-- The calls that work on the rings of a port. -/
def Call.IsData : Call → Prop
  | write .. | read .. | pollPort _ | writeHw .. | readHw .. | pollHwPort .. | fifoLevel _
  | queueSize _ | receive .. | injectRxFrameBytes .. | injectTxFrameBytes ..
  | injectQueueFrameBytes .. | transferNextTxFrame _ | queueRead .. => True
  | _ => False

/-- The call goes through `Driver.onPort` with a body that is blind to the configuration. -/
def Call.Blind (c : Call) (m : DeviceMemory) : Prop :=
  ∃ (α : Type) (portIndex : Nat) (rejected : α) (body : PortIndex → Port → α × Port)
    (out : α → Reply × DeviceMemory), (∀ p, ConfigBlind (body p)) ∧
      ∀ d, c.exec d m = ((out (d.onPort portIndex rejected body).1).1,
        (d.onPort portIndex rejected body).2, (out (d.onPort portIndex rejected body).1).2)

/-- **No function that works on the rings sees the configuration.** -/
theorem Call.IsData.blind {c : Call} (hc : c.IsData) (m : DeviceMemory) : c.Blind m := by
  cases c with
  | write portIndex | receive portIndex | injectRxFrameBytes portIndex
  | injectTxFrameBytes portIndex | injectQueueFrameBytes portIndex | queueRead portIndex =>
    refine ⟨Reply, portIndex, _, _, (·, m), fun p => ?_, fun _ => rfl⟩
    exact .ite (fun _ _ => Iff.rfl) (fun _ _ => rfl) fun _ _ => rfl
  | fifoLevel portIndex | queueSize portIndex =>
    exact ⟨Nat, portIndex, _, _, (.counted ·, m), fun _ _ _ => rfl, fun _ => rfl⟩
  | transferNextTxFrame portIndex =>
    refine ⟨Reply, portIndex, _, _, (·, m), fun p => ?_, fun _ => rfl⟩
    exact .ite (fun _ _ => Iff.rfl) (fun _ _ => rfl)
      (.ite (fun _ _ => Iff.rfl) (fun _ _ => rfl) fun _ _ => rfl)
  | pollPort portIndex =>
    refine ⟨Reply, portIndex, _, _, (·, m), fun p => ?_, fun _ => rfl⟩
    simp only [fun port => (pollPort_body port).1, fun port => (pollPort_body port).2, ne_eq,
      not_true_eq_false, if_false]
    refine @ConfigBlind.bind _ _ _ (fun _ port =>
      if port.rxFifo.hasCompleteFrame then (Reply.code .messageReady, port)
      else (.code .messageNotReady, port)) pollRings_blind ?_
    exact fun _ => .ite (fun _ _ => Iff.rfl) (fun _ _ => rfl) fun _ _ => rfl
  | read portIndex data ptr =>
    refine ⟨Reply, portIndex, _, _, (·, m), fun p => ?_, fun _ => rfl⟩
    exact .ite (fun _ _ => Iff.rfl) (fun _ _ => rfl) (readFromStagedRx_blind p data.length)
  | writeHw deviceBase portIndex data ptr =>
    refine ⟨Reply × DeviceMemory, portIndex, _, _, id, fun p => ?_, fun _ => rfl⟩
    cases deviceBase with
    | none => exact fun _ _ => rfl
    | some deviceBase =>
      simp only [flushTxQueueToHw_eq, flushCount, ne_eq, not_true_eq_false, if_false]
      intro port config'
      obtain ⟨txFifo, rxFifo, rxPending, txQueue, rxQueue, config⟩ := port
      dsimp only [Port.withConfig]
      split_ifs <;> rfl
  | readHw deviceBase portIndex data ptr =>
    refine ⟨Reply × DeviceMemory, portIndex, _, _, id, fun p => ?_, fun _ => rfl⟩
    cases deviceBase with
    | none => exact fun _ _ => rfl
    | some deviceBase =>
      simp only [ne_eq]
      refine .ite (fun _ _ => Iff.rfl) (fun _ _ => rfl) ?_
      exact @ConfigBlind.bind _ _ _ (fun out port =>
        if ¬out.1 = .ok then ((Reply.code out.1, out.2), port)
        else (((readFromStagedRx p port data.length).1, out.2),
          (readFromStagedRx p port data.length).2)) (stageRxBytesFromHw_blind m deviceBase p)
        fun _ => .ite (fun _ _ => Iff.rfl) (fun _ _ => rfl) ((readFromStagedRx_blind p _).beside _)
  | pollHwPort deviceBase portIndex =>
    refine ⟨Reply × DeviceMemory, portIndex, _, _, id, fun p => ?_, fun _ => rfl⟩
    cases deviceBase with
    | none => exact fun _ _ => rfl
    | some deviceBase =>
      simp only [flushTxQueueToHw_eq, stageRxBytesFromHw_eq, flushCount, stageMemory, stageCount,
        ne_eq, not_true_eq_false, if_false]
      intro port config'
      obtain ⟨txFifo, rxFifo, rxPending, txQueue, rxQueue, config⟩ := port
      dsimp only [Port.withConfig]
      split_ifs <;> rfl
  | _ => exact hc.elim

/-! ## What a port reports -/

/-- The configuration of a port after one more call, given the one before it. -/
def Event.configures (p : PortIndex) (config : PortConfig) (e : Event) : PortConfig :=
  match e.call with
  | .initializePort portIndex (some accepted) =>
    if portIndex = p ∧ e.reply.status = .ok then accepted else config
  | .resetState | .reset => defaultPortConfig
  | _ => config

/-- The configuration that was accepted last on a port since the last reset. -/
def configured (p : PortIndex) (es : List Event) : PortConfig :=
  es.foldl (Event.configures p) defaultPortConfig

section Event

variable {d : Driver} {m : DeviceMemory} {c : Call} (p : PortIndex)

/-- A call through `Driver.onPort` whose body keeps the configuration of a port. -/
theorem config_onPort {α : Type} {portIndex : Nat} {rejected : α}
    {body : PortIndex → Port → α × Port} (hbody : ∀ port, (body p port).2.config = port.config) :
    ((ensureStateInitialized (d.onPort portIndex rejected body).2).ports p).config =
      ((ensureStateInitialized d).ports p).config := by
  rw [ensureStateInitialized_onPort, onPort_ports]
  split_ifs
  · exact hbody _
  · rfl

theorem Call.IsData.config_after (hc : c.IsData) :
    ((ensureStateInitialized (Event.mk d m c).after).ports p).config =
      ((ensureStateInitialized d).ports p).config := by
  obtain ⟨α, portIndex, rejected, body, out, hblind, hexec⟩ := hc.blind m
  rw [Event.after, hexec]
  exact config_onPort p (hblind p).keeps

/-- **`xr17v358_initialize_port` accepts the valid configurations.** -/
theorem initializePort_accepts (config : Option PortConfig) :
    (initializePort d p config).1.status = validatePortConfig config ∧
      ((initializePort d p config).2.ports p).config =
        if validatePortConfig config = .ok then config.getD ((ensureStateInitialized d).ports p).config
        else ((ensureStateInitialized d).ports p).config := by
  unfold initializePort
  rw [onPort_out, onPort_ports, if_pos rfl]
  by_cases hvalid : validatePortConfig config = .ok
  · simp only [hvalid, ne_eq, not_true_eq_false, if_false, if_true]
    exact ⟨rfl, trivial⟩
  · simp only [hvalid, ne_eq, not_false_eq_true, if_true, if_false]
    exact ⟨rfl, trivial⟩

/-- **Only an accepted configuration and a reset change the configuration of a port.** -/
theorem config_after :
    ((ensureStateInitialized (Event.mk d m c).after).ports p).config =
      (Event.mk d m c).configures p ((ensureStateInitialized d).ports p).config := by
  cases c with
  | initializePort portIndex config =>
    have hensured : ensureStateInitialized (initializePort d portIndex config).2 =
      (initializePort d portIndex config).2 := ensureStateInitialized_onPort
    show ((ensureStateInitialized (initializePort d portIndex config).2).ports p).config = _
    rw [hensured]
    by_cases hp : portIndex = p
    · subst hp
      obtain ⟨hstatus, hconfig⟩ := @initializePort_accepts d p config
      rw [hconfig]
      cases config with
      | none => rfl
      | some accepted =>
        show _ = if p.val = p ∧ (initializePort d p (some accepted)).1.status = .ok then _ else _
        simp only [hstatus, true_and, Option.getD_some]
    · rw [initializePort, onPort_ports, if_neg hp]
      cases config with
      | none => rfl
      | some accepted => exact (if_neg (hp ·.1)).symm
  | getPortConfig portIndex ptr =>
    refine config_onPort p ?_
    intro port
    split_ifs <;> rfl
  | getUartBase | getTxFifoBase | writeTxFifo | readRxFifo | setDiscrete | setLoopback => rfl
  | resetState | reset => rfl
  | write | read | pollPort | writeHw | readHw | pollHwPort | fifoLevel | queueSize | receive
  | injectRxFrameBytes | injectTxFrameBytes | injectQueueFrameBytes | transferNextTxFrame
  | queueRead => exact Call.IsData.config_after p trivial

/-- What a call puts on a port is valid. -/
theorem configures_valid {config : PortConfig} (h : validatePortConfig (some config) = .ok) :
    validatePortConfig (some ((Event.mk d m c).configures p config)) = .ok := by
  cases c with
  | initializePort portIndex new =>
    cases new with
    | none => exact h
    | some accepted =>
      show validatePortConfig (some (if portIndex = p.val ∧
        (initializePort d portIndex (some accepted)).1.status = .ok then accepted else config)) = .ok
      split_ifs with hok
      · obtain ⟨rfl, hstatus⟩ := hok
        rwa [(initializePort_accepts p (some accepted)).1] at hstatus
      · exact h
  | resetState | reset => exact validatePortConfig_default
  | _ => exact h

end Event

/-- **A port reports the valid configuration that it accepted last since the last reset.** At any
moment of any run of calls, with any arguments, on all ports. -/
theorem portConfig_tracks {es : List Event} {d : Driver} (hrun : Run (fun _ => True) .zero es d)
    (p : PortIndex) :
    getPortConfig d p .valid =
        ({ status := .ok, config := some (configured p es) }, ensureStateInitialized d) ∧
      validatePortConfig (some (configured p es)) = .ok := by
  have hinv : ((ensureStateInitialized d).ports p).config = configured p es ∧
      validatePortConfig (some (configured p es)) = .ok := by
    induction hrun with
    | nil => exact ⟨rfl, rfl⟩
    | @snoc es d _ m c _ ih =>
      obtain ⟨hconfig, hvalid⟩ := ih
      have hsnoc : configured p (es ++ [⟨d, m, c⟩]) =
          (Event.mk d m c).configures p (configured p es) := List.foldl_concat ..
      rw [hsnoc, config_after, hconfig]
      exact ⟨rfl, configures_valid p hvalid⟩
  obtain ⟨hconfig, hvalid⟩ := hinv
  refine ⟨?_, hvalid⟩
  rw [getPortConfig, onPort_ensure, onPort_eq (isInitialized_ensure d), if_neg Ptr.noConfusion,
    Driver.set_self, hconfig]

theorem portConfig_tracks_rejected :
    ∃ d, Run (fun _ => True) .zero [⟨.zero, default, .initializePort 2 (some ⟨9600, 2, 1⟩)⟩,
        ⟨(initializePort .zero 2 (some ⟨9600, 2, 1⟩)).2, default, .initializePort 2 (some ⟨0, 1, 0⟩)⟩]
        d ∧
      (getPortConfig d 2 .valid).1.config = some ⟨9600, 2, 1⟩ := by
  have hrun := ((@Run.nil (fun _ => True) Driver.zero).snoc default
    (.initializePort 2 (some ⟨9600, 2, 1⟩)) trivial).snoc default
    (.initializePort 2 (some ⟨0, 1, 0⟩)) trivial
  refine ⟨_, hrun, ?_⟩
  exact congrArg (fun out => out.1.config) (portConfig_tracks hrun 2).1

end Xr17v358
