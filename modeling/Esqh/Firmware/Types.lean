import Esqh.Library.Memory

/-!
The public types and constants of `include/esqh/esqh.h`. Unsigned fields are
bit vectors of the source's width, so additions wrap as they do there;
`int16_t` is `Int16`. `esqh_interface_t` is an integer in every frame: the
source casts arbitrary values to it and checks the range itself.
-/

namespace Esqh

abbrev U8 := BitVec 8
abbrev U16 := BitVec 16
abbrev U32 := BitVec 32

/-- A pointer argument that the source compares with `NULL`. -/
abbrev Ptr (α : Type) := Option α

abbrev maxPayload : Nat := 256
abbrev frameQueueCapacity : Nat := 8
abbrev spiRegisterCount : Nat := 16
abbrev watchdogDefaultMs : U16 := 100
abbrev telemetrySize : Nat := 24

def faultInterface : U32 := 1 <<< 0
def faultQueueOverflow : U32 := 1 <<< 1
def faultSequence : U32 := 1 <<< 2
def faultCommandRange : U32 := 1 <<< 3
def faultWatchdog : U32 := 1 <<< 16
def faultCritical : U32 := 1 <<< 17
def recoverableFaults : U32 :=
  faultInterface ||| faultQueueOverflow ||| faultSequence ||| faultCommandRange

inductive Status where
  | ok
  | errArgument
  | errLength
  | errChecksum
  | errRange
  | errFull
  | errEmpty
  | errSequence
  | errState
  deriving DecidableEq, Repr

inductive State where
  | init
  | operational
  | degraded
  | safe
  deriving DecidableEq, Repr

/-- The enumerator's value, as telemetry casts it. -/
def State.code : State → U8
  | .init => 0
  | .operational => 1
  | .degraded => 2
  | .safe => 3

abbrev interfaceUart : Int := 1
abbrev interfaceSpi : Int := 2
abbrev interfaceCan : Int := 3
abbrev interfaceEthernet : Int := 4

structure Config where
  watchdogTimeoutMs : U16
  minimumSetpoint : Int16
  maximumSetpoint : Int16
  enabledInterfaceMask : U32
  version : Vector U8 8
  baseline : Vector U8 20
  deriving DecidableEq

structure Frame where
  interfaceType : Int
  messageId : U16
  sequence : U16
  payloadLength : U16
  payload : Vector U8 maxPayload
  deriving DecidableEq

structure FrameQueue where
  entries : Vector Frame frameQueueCapacity
  head : U8
  tail : U8
  count : U8
  deriving DecidableEq

structure InterfaceCounters where
  uartAccepted : U32
  spiAccepted : U32
  canAccepted : U32
  ethernetAccepted : U32
  rejected : U32
  deriving DecidableEq

structure Controller where
  config : Config
  state : State
  queue : FrameQueue
  counters : InterfaceCounters
  elapsedMs : U32
  lastHeartbeatMs : U32
  faultBitmap : U32
  task1msCount : U32
  task10msCount : U32
  task100msCount : U32
  lastCommandSequence : U16
  telemetrySequence : U16
  setpoint : Int16
  spiRegisters : Vector U8 spiRegisterCount
  scheduler10ms : U8
  scheduler100ms : U8
  selfTestPassed : Bool
  heartbeatSeen : Bool
  deriving DecidableEq

end Esqh
