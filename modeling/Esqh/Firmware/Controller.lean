import Esqh.Firmware.Config
import Esqh.Firmware.Queue
import Esqh.Firmware.Frame

/-!
`src/controller.c`: the register model, the command interface, fault latching
and recovery, the millisecond tick, frame intake and telemetry. Every function
takes the controller and returns it updated next to its status; the receiver
itself is never null here.
-/

namespace Esqh

open Memory

def latchFault (c : Controller) (fault : U32) (critical : Bool) : Controller :=
  let c := { c with faultBitmap := c.faultBitmap ||| fault }
  if critical = true ∨ fault &&& ~~~recoverableFaults ≠ 0 then { c with state := .safe }
  else if c.state ≠ .safe then { c with state := .degraded }
  else c

def spiWrite (c : Controller) (address value : U8) : Status × Controller :=
  if address.toNat ≥ spiRegisterCount then (.errRange, latchFault c faultInterface false)
  else
    (.ok, { c with
      spiRegisters := c.spiRegisters.setIfInBounds address.toNat value
      counters := { c.counters with spiAccepted := c.counters.spiAccepted + 1 } })

/-- The caller's byte is returned next to the status. -/
def spiRead (c : Controller) (address : U8) (value : Ptr U8) : Status × Ptr U8 :=
  match value with
  | none => (.errArgument, none)
  | some byte =>
    if address.toNat ≥ spiRegisterCount then (.errRange, some byte)
    else (.ok, some (c.spiRegisters[address.toNat]?.getD byte))

/-- An invalid configuration leaves the memory as it was. The ring buffer's
entries are not cleared. -/
def controllerInit (c : Controller) (config : Ptr Config) : Controller :=
  match config with
  | none => c
  | some config =>
    if configIsValid (some config) = .ok true then
      { config := config
        state := .init
        queue := queueInit c.queue
        counters :=
          { uartAccepted := 0
            spiAccepted := 0
            canAccepted := 0
            ethernetAccepted := 0
            rejected := 0 }
        elapsedMs := 0
        lastHeartbeatMs := 0
        faultBitmap := 0
        task1msCount := 0
        task10msCount := 0
        task100msCount := 0
        lastCommandSequence := 0
        telemetrySequence := 0
        setpoint := 0
        scheduler10ms := 10
        scheduler100ms := 100
        selfTestPassed := false
        heartbeatSeen := false
        spiRegisters := Vector.replicate spiRegisterCount 0 }
    else c

def markSelfTestPassed (c : Controller) : Controller :=
  if c.state ≠ .safe then
    let c := { c with selfTestPassed := true }
    if c.heartbeatSeen = true ∧ c.faultBitmap = 0 then { c with state := .operational } else c
  else c

def acceptSequence (c : Controller) (sequence : U16) : Status × Controller :=
  if sequence = 0 ∨ sequence ≤ c.lastCommandSequence then
    (.errSequence, latchFault c faultSequence false)
  else (.ok, { c with lastCommandSequence := sequence })

def heartbeat (c : Controller) (sequence : U16) : Status × Controller :=
  match acceptSequence c sequence with
  | (.ok, c) =>
    let c := { c with heartbeatSeen := true, lastHeartbeatMs := c.elapsedMs }
    if c.state ≠ .safe ∧ c.selfTestPassed = true ∧ c.faultBitmap = 0 then
      (.ok, { c with state := .operational })
    else (.ok, c)
  | (status, c) => (status, c)

def setpoint (c : Controller) (sequence : U16) (value : Int16) : Status × Controller :=
  if c.state ≠ .operational then (.errState, c)
  else
    match acceptSequence c sequence with
    | (.ok, c) =>
      if value < c.config.minimumSetpoint ∨ value > c.config.maximumSetpoint then
        (.errRange, latchFault c faultCommandRange false)
      else (.ok, { c with setpoint := value })
    | (status, c) => (status, c)

def recover (c : Controller) : Status × Controller :=
  if c.state ≠ .degraded ∨ c.faultBitmap = 0 then (.errState, c)
  else if c.faultBitmap &&& ~~~recoverableFaults ≠ 0 then (.errState, c)
  else
    (.ok, { c with
      faultBitmap := c.faultBitmap &&& ~~~recoverableFaults
      state := .init
      selfTestPassed := false
      heartbeatSeen := false })

/-- The tick's bookkeeping in front of the watchdog check. -/
def advanceClocks (c : Controller) : Controller :=
  let scheduler10ms := c.scheduler10ms - 1
  let scheduler100ms := c.scheduler100ms - 1
  { c with
    elapsedMs := c.elapsedMs + 1
    task1msCount := c.task1msCount + 1
    task10msCount := if scheduler10ms = 0 then c.task10msCount + 1 else c.task10msCount
    scheduler10ms := if scheduler10ms = 0 then 10 else scheduler10ms
    task100msCount := if scheduler100ms = 0 then c.task100msCount + 1 else c.task100msCount
    scheduler100ms := if scheduler100ms = 0 then 100 else scheduler100ms }

def tick (c : Controller) : Controller :=
  let c := advanceClocks c
  if c.selfTestPassed = true ∧
      c.elapsedMs - c.lastHeartbeatMs > c.config.watchdogTimeoutMs.setWidth 32 then
    latchFault c faultWatchdog true
  else c

/-- The three statements every rejecting branch of the intake shares. -/
def rejectFrame (c : Controller) (fault : U32) : Controller :=
  latchFault { c with counters := { c.counters with rejected := c.counters.rejected + 1 } }
    fault false

/-- The accepted counter of the frame's interface. -/
def countAccepted (counters : InterfaceCounters) (interfaceType : Int) : InterfaceCounters :=
  if interfaceType = interfaceUart then
    { counters with uartAccepted := counters.uartAccepted + 1 }
  else if interfaceType = interfaceSpi then
    { counters with spiAccepted := counters.spiAccepted + 1 }
  else if interfaceType = interfaceCan then
    { counters with canAccepted := counters.canAccepted + 1 }
  else if interfaceType = interfaceEthernet then
    { counters with ethernetAccepted := counters.ethernetAccepted + 1 }
  else counters

def enabledBit (interfaceType : Int) : U32 :=
  (1 : U32) <<< (BitVec.ofInt 32 interfaceType - 1)

def receive (c : Controller) (frame : Ptr Frame) : Status × Controller :=
  match frame with
  | none => (.errArgument, c)
  | some frame =>
    if frame.interfaceType < interfaceUart ∨ frame.interfaceType > interfaceEthernet ∨
        frame.payloadLength > payloadLimit frame.interfaceType then
      (.errRange, rejectFrame c faultInterface)
    else if frame.interfaceType = interfaceCan ∧ frame.messageId > 0x07ff then
      (.errRange, rejectFrame c faultInterface)
    else if c.config.enabledInterfaceMask &&& enabledBit frame.interfaceType = 0 then
      (.errState, rejectFrame c faultInterface)
    else
      match queuePush c.queue (some frame) with
      | (.ok, queue) =>
        (.ok, { c with
          queue := queue
          counters := countAccepted c.counters frame.interfaceType })
      | (status, queue) => (status, rejectFrame { c with queue := queue } faultQueueOverflow)

/-- The bytes of one telemetry record, written into the caller's buffer. -/
def writeTelemetry {n : Nat} (c : Controller) (output : Vector U8 n) :
    Access (Vector U8 n) := do
  let output ← writeU16 output 0 c.telemetrySequence
  let output ← write output 2 c.state.code
  let output ← write output 3 0
  let output ← writeU32 output 4 c.faultBitmap
  let output ← writeU16 output 8 c.setpoint.toBitVec
  let output ← writeU16 output 10 ((c.spiRegisters[0]).setWidth 16)
  let output ← writeU16 output 12 (c.counters.uartAccepted.setWidth 16)
  let output ← writeU16 output 14 (c.counters.spiAccepted.setWidth 16)
  let output ← writeU16 output 16 (c.counters.canAccepted.setWidth 16)
  let output ← writeU16 output 18 (c.counters.ethernetAccepted.setWidth 16)
  let output ← writeU16 output 20 (c.counters.rejected.setWidth 16)
  let crc ← crc16 (some output) 22
  writeU16 output 22 crc

/-- The record's length, the caller's buffer and the controller. -/
def telemetry {n : Nat} (c : Controller) (output : Ptr (Vector U8 n)) :
    Nat × Access (Ptr (Vector U8 n)) × Controller :=
  match output with
  | none => (0, .ok none, c)
  | some output =>
    let c := { c with telemetrySequence := c.telemetrySequence + 1 }
    (telemetrySize, (writeTelemetry c output).map some, c)

end Esqh
