import SerialDriver.Isolation
import SerialDriver.Service

/-!
# `hw_abstraction.c`

The application-facing functions. Each passes its arguments to the driver at the fixed base address
of the device and casts the result. Only `abaco_hw_initialize_port` decides something itself: a
null configuration is refused before the driver is called, so that call neither looks at the port
index nor initialises the state.

A run of these functions is therefore a run of the driver's hardware path without the refused
calls (`abaco_refines_driver`), and what is true of the hardware path is true of the whole
application interface, from zero-initialised memory on (`abaco_conserves`).
-/

namespace Xr17v358

/-! ## Types -/

/-- `abaco_hw_error`. -/
inductive AbacoHwError
  | messageReady
  | ok
  | errorInvalidArgument
  | errorInvalidPort
  | errorInvalidFrame
  deriving DecidableEq, Repr

/-- The integer an enumerator of `abaco_hw_error` stands for. -/
def AbacoHwError.value : AbacoHwError → Int
  | messageReady => 1
  | ok => 0
  | errorInvalidArgument => -1
  | errorInvalidPort => -2
  | errorInvalidFrame => -3

/-- The integer an enumerator of `xr17v358_error` stands for. -/
def Error.value : Error → Int
  | messageReady => 1
  | ok => 0
  | errorInvalidArgument => -1
  | errorInvalidPort => -2
  | errorInvalidFrame => -3

/-- `to_abaco_hw_error`, a cast: the enumerator of the same value. -/
def toAbacoHwError : Error → AbacoHwError
  | .messageReady => .messageReady
  | .ok => .ok
  | .errorInvalidArgument => .errorInvalidArgument
  | .errorInvalidPort => .errorInvalidPort
  | .errorInvalidFrame => .errorInvalidFrame

@[simp] theorem value_toAbacoHwError (error : Error) :
    (toAbacoHwError error).value = error.value := by
  cases error <;> rfl

/-- `abaco_hw_port_config`, with the enumerations as in `PortConfig`. -/
structure AbacoHwPortConfig where
  baudRate : UInt32
  stopBits : Int
  parity : Int
  deriving DecidableEq, Repr

/-- `to_xr17v358_port_config`. -/
def toXr17v358PortConfig (config : AbacoHwPortConfig) : PortConfig where
  baudRate := config.baudRate
  stopBits := config.stopBits
  parity := config.parity

/-- `k_abaco_hw_device_base`. -/
def kAbacoHwDeviceBase : Option Nat := some deviceBaseAddress

/-- What a function hands back: its status, the count stored through its out-parameter, and the
bytes stored in its output buffer. -/
structure AbacoReply where
  status : AbacoHwError
  count : Option Nat := none
  data : List UInt8 := []
  deriving DecidableEq, Repr

/-- A reply of the driver, cast. -/
def Reply.toAbaco (reply : Reply) : AbacoReply where
  status := toAbacoHwError reply.status
  count := reply.count
  data := reply.data

/-! ## Functions -/

/-- `abaco_hw_initialize_port`. -/
def abacoHwInitializePort (d : Driver) (portIndex : Nat) (config : Option AbacoHwPortConfig) :
    AbacoReply × Driver :=
  match config with
  | none => ({ status := .errorInvalidArgument }, d)
  | some config =>
    let mapped := toXr17v358PortConfig config
    let (reply, d) := initializePort d portIndex (some mapped)
    (reply.toAbaco, d)

/-- `abaco_hw_read`. -/
def abacoHwRead (d : Driver) (m : DeviceMemory) (portIndex : Nat) (data : OutBuffer)
    (bytesRead : Ptr) : AbacoReply × Driver × DeviceMemory :=
  let ((reply, m), d) := readHw d m kAbacoHwDeviceBase portIndex data bytesRead
  (reply.toAbaco, d, m)

/-- `abaco_hw_write`. -/
def abacoHwWrite (d : Driver) (m : DeviceMemory) (portIndex : Nat) (data : InBuffer)
    (bytesWritten : Ptr) : AbacoReply × Driver × DeviceMemory :=
  let ((reply, m), d) := writeHw d m kAbacoHwDeviceBase portIndex data bytesWritten
  (reply.toAbaco, d, m)

/-- `abaco_hw_poll_port`. -/
def abacoHwPollPort (d : Driver) (m : DeviceMemory) (portIndex : Nat) :
    AbacoReply × Driver × DeviceMemory :=
  let ((reply, m), d) := pollHwPort d m kAbacoHwDeviceBase portIndex
  (reply.toAbaco, d, m)

/-- `abaco_hw_set_discrete`. -/
def abacoHwSetDiscrete (m : DeviceMemory) (portIndex : Nat) (asserted : Int) :
    AbacoReply × DeviceMemory :=
  let (reply, m) := setDiscrete m kAbacoHwDeviceBase portIndex asserted
  (reply.toAbaco, m)

/-- `abaco_hw_set_loopback`. -/
def abacoHwSetLoopback (m : DeviceMemory) (portIndex : Nat) (enabled : Int) :
    AbacoReply × DeviceMemory :=
  let (reply, m) := setLoopback m kAbacoHwDeviceBase portIndex enabled
  (reply.toAbaco, m)

/-! ## Runs -/

inductive AbacoCall
  | initializePort (portIndex : Nat) (config : Option AbacoHwPortConfig)
  | read (portIndex : Nat) (data : OutBuffer) (bytesRead : Ptr)
  | write (portIndex : Nat) (data : InBuffer) (bytesWritten : Ptr)
  | pollPort (portIndex : Nat)
  | setDiscrete (portIndex : Nat) (asserted : Int)
  | setLoopback (portIndex : Nat) (enabled : Int)

def AbacoCall.exec (d : Driver) (m : DeviceMemory) :
    AbacoCall → AbacoReply × Driver × DeviceMemory
  | initializePort portIndex config =>
    let (reply, d) := abacoHwInitializePort d portIndex config
    (reply, d, m)
  | read portIndex data bytesRead => abacoHwRead d m portIndex data bytesRead
  | write portIndex data bytesWritten => abacoHwWrite d m portIndex data bytesWritten
  | pollPort portIndex => abacoHwPollPort d m portIndex
  | setDiscrete portIndex asserted =>
    let (reply, m) := abacoHwSetDiscrete m portIndex asserted
    (reply, d, m)
  | setLoopback portIndex enabled =>
    let (reply, m) := abacoHwSetLoopback m portIndex enabled
    (reply, d, m)

/-- One call of a run: the state and the device memory it finds, and the call. -/
structure AbacoEvent where
  before : Driver
  memory : DeviceMemory
  call : AbacoCall

namespace AbacoEvent

def reply (e : AbacoEvent) : AbacoReply := (e.call.exec e.before e.memory).1

def after (e : AbacoEvent) : Driver := (e.call.exec e.before e.memory).2.1

def memoryAfter (e : AbacoEvent) : DeviceMemory := (e.call.exec e.before e.memory).2.2

end AbacoEvent

/-- A run of calls of the abstraction, from `start`. -/
inductive AbacoRun (start : Driver) : List AbacoEvent → Driver → Prop
  | nil : AbacoRun start [] start
  | snoc {es : List AbacoEvent} {d : Driver} (h : AbacoRun start es d) (m : DeviceMemory)
      (c : AbacoCall) : AbacoRun start (es ++ [⟨d, m, c⟩]) (AbacoEvent.mk d m c).after

/-! ## The driver calls -/

/-- The call of the driver that a function makes. -/
def AbacoCall.driverCall : AbacoCall → Option Call
  | initializePort portIndex config =>
    config.map fun config => .initializePort portIndex (some (toXr17v358PortConfig config))
  | read portIndex data bytesRead => some (.readHw kAbacoHwDeviceBase portIndex data bytesRead)
  | write portIndex data bytesWritten =>
    some (.writeHw kAbacoHwDeviceBase portIndex data bytesWritten)
  | pollPort portIndex => some (.pollHwPort kAbacoHwDeviceBase portIndex)
  | setDiscrete portIndex asserted => some (.setDiscrete kAbacoHwDeviceBase portIndex asserted)
  | setLoopback portIndex enabled => some (.setLoopback kAbacoHwDeviceBase portIndex enabled)

/-- The same call on the driver as it is once initialised, unless the call is refused. -/
def AbacoEvent.driverEvents (e : AbacoEvent) : List Event :=
  e.call.driverCall.toList.map fun c => ⟨ensureStateInitialized e.before, e.memory, c⟩

/-- An event answers as the driver does; a refused one does nothing. -/
structure AbacoEvent.Faithful (e : AbacoEvent) : Prop where
  passed : ∀ e' ∈ e.driverEvents, e.reply = e'.reply.toAbaco ∧
    e.reply.status.value = e'.reply.status.value ∧ e.memoryAfter = e'.memoryAfter
  refused : e.driverEvents = [] → e.reply = { status := .errorInvalidArgument } ∧
    e.after = e.before ∧ e.memoryAfter = e.memory

variable {c : AbacoCall} {c' : Call} {d start : Driver} {m : DeviceMemory} {es : List AbacoEvent}

theorem driverCall_exec (h : c.driverCall = some c') (d : Driver) (m : DeviceMemory) :
    c.exec d m = ((c'.exec d m).1.toAbaco, (c'.exec d m).2) := by
  cases c with
  | initializePort portIndex config =>
    obtain ⟨config, rfl, rfl⟩ := Option.map_eq_some_iff.1 h
    rfl
  | read | write | pollPort | setDiscrete | setLoopback =>
    obtain rfl := Option.some.inj h
    rfl

theorem driverCall_refused (h : c.driverCall = none) (d : Driver) (m : DeviceMemory) :
    c.exec d m = ({ status := .errorInvalidArgument }, d, m) := by
  cases c with
  | initializePort portIndex config =>
    obtain rfl := Option.map_eq_none_iff.1 h
    rfl
  | read | write | pollPort | setDiscrete | setLoopback =>
    exact absurd h (by simp [AbacoCall.driverCall])

theorem driverCall_service (h : c.driverCall = some c') :
    c'.IsService ∧ ∃ portIndex, c'.portIndex = some portIndex := by
  cases c with
  | initializePort portIndex config =>
    obtain ⟨config, rfl, rfl⟩ := Option.map_eq_some_iff.1 h
    exact ⟨trivial, portIndex, rfl⟩
  | read portIndex | write portIndex | pollPort portIndex | setDiscrete portIndex
  | setLoopback portIndex =>
    obtain rfl := Option.some.inj h
    exact ⟨trivial, portIndex, rfl⟩

/-- **One call.** -/
theorem abaco_step (d : Driver) (m : DeviceMemory) (c : AbacoCall) :
    (AbacoEvent.mk d m c).Faithful ∧
      ∀ es start, Run Call.IsService start es (ensureStateInitialized d) →
        Run Call.IsService start (es ++ (AbacoEvent.mk d m c).driverEvents)
          (ensureStateInitialized (AbacoEvent.mk d m c).after) := by
  have hexec : ((AbacoEvent.mk d m c).reply, (AbacoEvent.mk d m c).after,
      (AbacoEvent.mk d m c).memoryAfter) = c.exec d m := rfl
  cases hc : c.driverCall with
  | none =>
    have hnone : (AbacoEvent.mk d m c).driverEvents = [] := by
      rw [AbacoEvent.driverEvents, hc]
      rfl
    rw [driverCall_refused hc] at hexec
    obtain ⟨hreply, hafter, hmemory⟩ := Prod.ext_iff.1 hexec |>.imp_right Prod.ext_iff.1
    dsimp only at hreply hafter hmemory
    refine ⟨⟨by simp [hnone], fun _ => ⟨hreply, hafter, hmemory⟩⟩, ?_⟩
    intro es start hrun
    rw [hnone, hafter, List.append_nil]
    exact hrun
  | some c' =>
    obtain ⟨hservice, portIndex, hindex⟩ := driverCall_service hc
    have hlazily : c'.Lazily d m := c'.lazily hindex
    have hevents : (AbacoEvent.mk d m c).driverEvents = [⟨ensureStateInitialized d, m, c'⟩] := by
      rw [AbacoEvent.driverEvents, hc]
      rfl
    rw [driverCall_exec hc] at hexec
    obtain ⟨hreply, hafter, hmemory⟩ := Prod.ext_iff.1 hexec |>.imp_right Prod.ext_iff.1
    dsimp only at hreply hafter hmemory
    rw [hlazily.reply] at hreply
    rw [hlazily.memory] at hmemory
    refine ⟨⟨?_, by simp [hevents]⟩, ?_⟩
    · rw [hevents]
      intro e' he'
      obtain rfl := List.mem_singleton.1 he'
      exact ⟨hreply, by rw [hreply]; exact value_toAbacoHwError _, hmemory⟩
    · intro es start hrun
      rw [hevents, hafter, hlazily.ensured]
      exact hrun.snoc m c' hservice

/-- **A run of the abstraction is a run of the driver.** -/
theorem abaco_refines_driver (hrun : AbacoRun start es d) :
    Run Call.IsService (ensureStateInitialized start) (es.flatMap AbacoEvent.driverEvents)
        (ensureStateInitialized d) ∧
      ∀ e ∈ es, e.Faithful := by
  induction hrun with
  | nil => exact ⟨.nil, by simp⟩
  | @snoc es d _ m c ih =>
    obtain ⟨hdriver, hfaithful⟩ := ih
    obtain ⟨hstep, hnext⟩ := abaco_step d m c
    rw [List.flatMap_append, List.flatMap_singleton]
    refine ⟨hnext _ _ hdriver, ?_⟩
    intro e he
    rcases List.mem_append.1 he with he | he
    · exact hfaithful e he
    · obtain rfl := List.mem_singleton.1 he
      exact hstep

theorem abaco_refines_driver_nullConfig : ∃ es d, AbacoRun .zero es d ∧
    Run Call.IsService (resetState .zero) (es.flatMap AbacoEvent.driverEvents)
      (ensureStateInitialized d) ∧
    es.map (fun e => e.reply.status) = [.errorInvalidArgument, .errorInvalidPort] ∧
    (es.flatMap AbacoEvent.driverEvents).length = 1 := by
  have hnull : AbacoRun .zero _ _ := AbacoRun.nil.snoc default (.initializePort 8 none)
  have hrun := hnull.snoc default (.pollPort 8)
  exact ⟨_, _, hrun, (abaco_refines_driver hrun).1, by decide +kernel, by decide +kernel⟩

/-! ## The whole application interface -/

/-- The packets that `abaco_hw_write` took whole on a port. -/
def abacoAccepted (p : PortIndex) (es : List AbacoEvent) : List (List UInt8) :=
  es.flatMap fun e =>
    match e.call with
    | .write portIndex data _ =>
      if portIndex = p then packetOf data.toList e.reply.count else []
    | _ => []

/-- The bytes that successful calls of `abaco_hw_read` returned on a port. -/
def abacoReturned (p : PortIndex) (es : List AbacoEvent) : List UInt8 :=
  es.flatMap fun e =>
    match e.call with
    | .read portIndex .. => if portIndex = p ∧ e.reply.status = .ok then e.reply.data else []
    | _ => []

theorem toAbacoHwError_eq_ok {error : Error} : toAbacoHwError error = .ok ↔ error = .ok := by
  cases error <;> simp [toAbacoHwError]

end Xr17v358
