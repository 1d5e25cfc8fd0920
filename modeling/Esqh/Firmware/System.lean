import Esqh.Firmware.Controller
import Esqh.Library.Machine

/-!
The controller as a machine: one call of its interface at a time, each with its
reply, after an initialisation with a valid configuration. What a pointer
argument points to travels with the call and the reply; it may be null, the
controller itself never is.
-/

namespace Esqh

open Memory

inductive Call where
  | markSelfTestPassed
  | heartbeat (sequence : U16)
  | setpoint (sequence : U16) (value : Int16)
  | latchFault (fault : U32) (critical : Bool)
  | recover
  | tick
  | receive (frame : Ptr Frame)
  | spiWrite (address value : U8)
  | spiRead (address : U8) (value : Ptr U8)
  | queuePop (frame : Ptr Frame)
  | telemetry (output : Ptr (Vector U8 telemetrySize))

/-- What a call returns, with the memory it was handed. -/
inductive Reply where
  | void
  | status (status : Status)
  | value (status : Status) (value : Ptr U8)
  | popped (status : Status) (frame : Ptr Frame)
  | telemetry (size : Nat) (output : Access (Ptr (Vector U8 telemetrySize)))

def step (c : Controller) : Call → Reply × Controller
  | .markSelfTestPassed => (.void, markSelfTestPassed c)
  | .heartbeat sequence =>
    let (status, c) := heartbeat c sequence
    (.status status, c)
  | .setpoint sequence value =>
    let (status, c) := setpoint c sequence value
    (.status status, c)
  | .latchFault fault critical => (.void, latchFault c fault critical)
  | .recover =>
    let (status, c) := recover c
    (.status status, c)
  | .tick => (.void, tick c)
  | .receive frame =>
    let (status, c) := receive c frame
    (.status status, c)
  | .spiWrite address value =>
    let (status, c) := spiWrite c address value
    (.status status, c)
  | .spiRead address value =>
    let (status, byte) := spiRead c address value
    (.value status byte, c)
  | .queuePop frame =>
    let (status, queue, frame) := queuePop c.queue frame
    (.popped status frame, { c with queue := queue })
  | .telemetry output =>
    let (size, output, c) := telemetry c output
    (.telemetry size output, c)

abbrev Exchange := Machine.Exchange Call Reply

/-- The calls made since initialisation and their replies, latest first. -/
abbrev History := List Exchange

/-- The run of some calls after initialising arbitrary memory. -/
def run (memory : Controller) (config : Config) (calls : List Call) :
    Machine.Run Controller Call Reply :=
  Machine.run step (controllerInit memory (some config)) calls

/-- A configuration that the validity check accepts. -/
def Config.Valid (config : Config) : Prop := configIsValid (some config) = .ok true

instance Config.decidableValid (config : Config) : Decidable config.Valid :=
  inferInstanceAs (Decidable (_ = _))

/-- A controller in statically allocated, zeroed memory. -/
def zeroController : Controller :=
  { config :=
      { watchdogTimeoutMs := 0
        minimumSetpoint := 0
        maximumSetpoint := 0
        enabledInterfaceMask := 0
        version := Vector.replicate 8 0
        baseline := Vector.replicate 20 0 }
    state := .init
    queue :=
      { entries := Vector.replicate frameQueueCapacity zeroFrame
        head := 0
        tail := 0
        count := 0 }
    counters :=
      { uartAccepted := 0
        spiAccepted := 0
        canAccepted := 0
        ethernetAccepted := 0
        rejected := 0 }
    elapsedMs := 0
    lastHeartbeatMs := 0
    faultBitmap := 0
    task1msCount := 0
    task10msCount := 0
    task100msCount := 0
    lastCommandSequence := 0
    telemetrySequence := 0
    setpoint := 0
    spiRegisters := Vector.replicate spiRegisterCount 0
    scheduler10ms := 0
    scheduler100ms := 0
    selfTestPassed := false
    heartbeatSeen := false }

theorem defaultConfig_valid : defaultConfig.Valid := by decide

example : configDefault (some zeroController.config) = .ok (some defaultConfig) := by decide

end Esqh
