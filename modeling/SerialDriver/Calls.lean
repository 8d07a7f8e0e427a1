import SerialDriver.Helpers

/-!
# Runs of API calls

`Call` is one call of a function of the production or helper interface, with any arguments; the
codec, which keeps no state, is left out. A run performs calls in sequence. The device may change
its registers and windows between calls, so each call comes with the device memory it finds.
`Reachable` collects the states of all runs from zero-initialised memory.
-/

namespace Xr17v358

inductive Call
  | initializePort (portIndex : Nat) (config : Option PortConfig)
  | getPortConfig (portIndex : Nat) (config : Ptr)
  | getUartBase (portIndex : Nat) (uartBase : Ptr)
  | getTxFifoBase (portIndex : Nat) (fifoBase : Ptr)
  | write (portIndex : Nat) (data : InBuffer) (bytesWritten : Ptr)
  | read (portIndex : Nat) (data : OutBuffer) (bytesRead : Ptr)
  | pollPort (portIndex : Nat)
  | writeTxFifo (deviceBase : Option Nat) (portIndex : Nat) (data : InBuffer) (bytesWritten : Ptr)
  | readRxFifo (deviceBase : Option Nat) (portIndex : Nat) (data : OutBuffer) (bytesRead : Ptr)
  | writeHw (deviceBase : Option Nat) (portIndex : Nat) (data : InBuffer) (bytesWritten : Ptr)
  | readHw (deviceBase : Option Nat) (portIndex : Nat) (data : OutBuffer) (bytesRead : Ptr)
  | pollHwPort (deviceBase : Option Nat) (portIndex : Nat)
  | setDiscrete (deviceBase : Option Nat) (portIndex : Nat) (asserted : Int)
  | setLoopback (deviceBase : Option Nat) (portIndex : Nat) (enabled : Int)
  | resetState
  | reset
  | fifoLevel (portIndex : Nat)
  | queueSize (portIndex : Nat)
  | receive (portIndex : Nat) (data : InBuffer) (bytesReceived : Ptr)
  | injectRxFrameBytes (portIndex : Nat) (data : InBuffer) (bytesWritten : Ptr)
  | injectTxFrameBytes (portIndex : Nat) (data : InBuffer) (bytesWritten : Ptr)
  | injectQueueFrameBytes (portIndex : Nat) (data : InBuffer) (bytesWritten : Ptr)
  | transferNextTxFrame (portIndex : Nat)
  | queueRead (portIndex : Nat) (data : OutBuffer) (bytesRead : Ptr)

/-- Perform a call: its reply, and the driver and the device afterwards. -/
def Call.exec (d : Driver) (m : DeviceMemory) : Call → Reply × Driver × DeviceMemory
  | initializePort portIndex config => modeled (Xr17v358.initializePort d portIndex config)
  | getPortConfig portIndex config => modeled (Xr17v358.getPortConfig d portIndex config)
  | getUartBase portIndex uartBase => (Xr17v358.getUartBase portIndex uartBase, d, m)
  | getTxFifoBase portIndex fifoBase => (Xr17v358.getTxFifoBase portIndex fifoBase, d, m)
  | write portIndex data bytesWritten => modeled (Xr17v358.write d portIndex data bytesWritten)
  | read portIndex data bytesRead => modeled (Xr17v358.read d portIndex data bytesRead)
  | pollPort portIndex => modeled (Xr17v358.pollPort d portIndex)
  | writeTxFifo deviceBase portIndex data bytesWritten =>
    direct (Xr17v358.writeTxFifo m deviceBase portIndex data bytesWritten)
  | readRxFifo deviceBase portIndex data bytesRead =>
    direct (Xr17v358.readRxFifo m deviceBase portIndex data bytesRead)
  | writeHw deviceBase portIndex data bytesWritten =>
    hardware (Xr17v358.writeHw d m deviceBase portIndex data bytesWritten)
  | readHw deviceBase portIndex data bytesRead =>
    hardware (Xr17v358.readHw d m deviceBase portIndex data bytesRead)
  | pollHwPort deviceBase portIndex => hardware (Xr17v358.pollHwPort d m deviceBase portIndex)
  | setDiscrete deviceBase portIndex asserted =>
    direct (Xr17v358.setDiscrete m deviceBase portIndex asserted)
  | setLoopback deviceBase portIndex enabled =>
    direct (Xr17v358.setLoopback m deviceBase portIndex enabled)
  | resetState => (.code .ok, Xr17v358.resetState d, m)
  | reset => (.code .ok, Xr17v358.reset d, m)
  | fifoLevel portIndex => counter (Xr17v358.fifoLevel d portIndex)
  | queueSize portIndex => counter (Xr17v358.queueSize d portIndex)
  | receive portIndex data bytesReceived =>
    modeled (Xr17v358.receive d portIndex data bytesReceived)
  | injectRxFrameBytes portIndex data bytesWritten =>
    modeled (Xr17v358.injectRxFrameBytes d portIndex data bytesWritten)
  | injectTxFrameBytes portIndex data bytesWritten =>
    modeled (Xr17v358.injectTxFrameBytes d portIndex data bytesWritten)
  | injectQueueFrameBytes portIndex data bytesWritten =>
    modeled (Xr17v358.injectQueueFrameBytes d portIndex data bytesWritten)
  | transferNextTxFrame portIndex => modeled (Xr17v358.transferNextTxFrame d portIndex)
  | queueRead portIndex data bytesRead =>
    modeled (Xr17v358.queueRead d portIndex data bytesRead)
where
  modeled (out : Reply × Driver) : Reply × Driver × DeviceMemory := (out.1, out.2, m)
  direct (out : Reply × DeviceMemory) : Reply × Driver × DeviceMemory := (out.1, d, out.2)
  hardware (out : (Reply × DeviceMemory) × Driver) : Reply × Driver × DeviceMemory :=
    (out.1.1, out.2, out.1.2)
  counter (out : Nat × Driver) : Reply × Driver × DeviceMemory := (.counted out.1, out.2, m)

/-! ## Runs -/

/-- One call of a run: the state and the device memory it finds, and the call. -/
structure Event where
  before : Driver
  memory : DeviceMemory
  call : Call

namespace Event

def reply (e : Event) : Reply := (e.call.exec e.before e.memory).1

def after (e : Event) : Driver := (e.call.exec e.before e.memory).2.1

def memoryAfter (e : Event) : DeviceMemory := (e.call.exec e.before e.memory).2.2

end Event

/-- A run of calls that `permitted` allows, from `start`. -/
inductive Run (permitted : Call → Prop) (start : Driver) : List Event → Driver → Prop
  | nil : Run permitted start [] start
  | snoc {es : List Event} {d : Driver} (h : Run permitted start es d) (m : DeviceMemory)
      (c : Call) (hc : permitted c) : Run permitted start (es ++ [⟨d, m, c⟩]) (Event.mk d m c).after

theorem Run.append {permitted : Call → Prop} {start d d' : Driver} {es es' : List Event}
    (h : Run permitted start es d) (h' : Run permitted d es' d') :
    Run permitted start (es ++ es') d' := by
  induction h' with
  | nil => rwa [List.append_nil]
  | snoc _ m c hc ih =>
    rw [← List.append_assoc]
    exact ih.snoc m c hc

theorem Run.mono {permitted permitted' : Call → Prop} {start d : Driver} {es : List Event}
    (h : Run permitted start es d) (hsub : ∀ c, permitted c → permitted' c) :
    Run permitted' start es d := by
  induction h with
  | nil => exact .nil
  | snoc _ m c hc ih => exact ih.snoc m c (hsub c hc)

/-- The states of runs of any calls from zero-initialised memory. -/
def Reachable (d : Driver) : Prop := ∃ es, Run (fun _ => True) .zero es d

/-- The driver just after one of the two resets. -/
def FreshlyReset (d : Driver) : Prop := ∃ d₀, d = Xr17v358.resetState d₀ ∨ d = Xr17v358.reset d₀

/-- Zero-initialised memory after bytes are injected into the `rx_fifo` of port 0. -/
def injected (bytes : List UInt8) : Driver :=
  (injectRxFrameBytes .zero 0 (.bytes bytes) .valid).2

theorem reachable_injected (bytes : List UInt8) : Reachable (injected bytes) :=
  ⟨_, Run.nil.snoc default (.injectRxFrameBytes 0 (.bytes bytes) .valid) trivial⟩

/-- A freshly reset port with these bytes in `rx_fifo`. -/
def Port.holding (bytes : List UInt8) : Port :=
  { (Driver.zero.ports 0).reset with
    rxFifo := ((Driver.zero.ports 0).reset.rxFifo.writeBytes bytes).2 }

theorem contents_holding (bytes : List UInt8) :
    (Port.holding bytes).rxFifo.contents = bytes.take ringBufferStorageCapacity := by
  have hroom : (Driver.zero.ports 0).reset.rxFifo.room = ringBufferStorageCapacity :=
    Ring.room_reset _ le_rfl
  rw [Port.holding, Ring.contents_writeBytes, hroom]
  rfl

theorem injected_port (bytes : List UInt8) : (injected bytes).ports 0 = .holding bytes := rfl

/-- A property of every prefix, one length at a time. -/
theorem forall_prefix {α : Type} {P : List α → Prop} {l : List α}
    (h : ∀ k < l.length + 1, P (l.take k)) {l' : List α} (hpre : l' <+: l) : P l' := by
  rw [List.prefix_iff_eq_take.1 hpre]
  exact h _ (Nat.lt_succ_of_le hpre.length_le)

/-! ## Traffic -/

/-- The packet, when the call reported it as taken whole. -/
def packetOf (data : List UInt8) (count : Option Nat) : List (List UInt8) :=
  if data ≠ [] ∧ count = some data.length then [data] else []

/-- The packets submitted on a port that the driver reported as taken whole. `submitted` picks the
calls that count, with their port index and data. -/
def accepted (submitted : Call → Option (Nat × List UInt8)) (p : PortIndex) (es : List Event) :
    List (List UInt8) :=
  es.flatMap fun e =>
    match submitted e.call with
    | some (portIndex, data) => if portIndex = p then packetOf data e.reply.count else []
    | none => []

/-- The bytes that the successful calls picked by `reads` returned on a port. -/
def returned (reads : Call → Option Nat) (p : PortIndex) (es : List Event) : List UInt8 :=
  es.flatMap fun e => if reads e.call = some p.val ∧ e.reply.status = .ok then e.reply.data else []

/-- The port that a `read` or a `readHw` takes payload bytes from. -/
def Call.takes : Call → Option Nat
  | read portIndex .. => some portIndex
  | readHw _ portIndex .. => some portIndex
  | _ => none

theorem accepted_snoc (submitted : Call → Option (Nat × List UInt8)) (p : PortIndex)
    (es : List Event) (e : Event) :
    accepted submitted p (es ++ [e]) = accepted submitted p es ++ accepted submitted p [e] :=
  List.flatMap_append

theorem accepted_event {submitted : Call → Option (Nat × List UInt8)} {e : Event}
    {portIndex : Nat} {data : List UInt8} (h : submitted e.call = some (portIndex, data))
    (p : PortIndex) :
    accepted submitted p [e] = if portIndex = p then packetOf data e.reply.count else [] := by
  rw [accepted, List.flatMap_singleton, h]

theorem accepted_other {submitted : Call → Option (Nat × List UInt8)} {e : Event}
    (h : submitted e.call = none) (p : PortIndex) : accepted submitted p [e] = [] := by
  rw [accepted, List.flatMap_singleton, h]

theorem packetOf_none (data : List UInt8) : packetOf data none = [] := if_neg (by simp)

/-- Nothing is taken when no byte is. -/
theorem packetOf_zero (data : List UInt8) : packetOf data (some 0) = [] := by
  apply if_neg
  intro h
  exact h.1 (List.eq_nil_of_length_eq_zero (Option.some.inj h.2).symm)

theorem returned_snoc (reads : Call → Option Nat) (p : PortIndex) (es : List Event) (e : Event) :
    returned reads p (es ++ [e]) = returned reads p es ++ returned reads p [e] :=
  List.flatMap_append

theorem returned_event {reads : Call → Option Nat} {e : Event} {portIndex : Nat}
    (h : reads e.call = some portIndex) (p : PortIndex) :
    returned reads p [e] =
      if portIndex = p ∧ e.reply.status = .ok then e.reply.data else [] := by
  rw [returned, List.flatMap_singleton, h]
  simp only [Option.some.injEq]

theorem returned_other {reads : Call → Option Nat} {e : Event} (h : reads e.call = none)
    (p : PortIndex) : returned reads p [e] = [] := by
  rw [returned, List.flatMap_singleton, h]
  exact if_neg (by simp)

end Xr17v358
