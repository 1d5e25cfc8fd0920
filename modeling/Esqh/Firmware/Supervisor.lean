import Esqh.Firmware.Answers

/-!
The mode logic on its own: the state, the fault bitmap, the two start-up flags
and the two clock readings that the watchdog compares, driven by the events
that calls and replies amount to. The controller refines it.
-/

namespace Esqh

/-- What an answered call means to the mode logic. -/
inductive ModeEvent where
  | selfTestPassed
  | heartbeatAccepted
  | fault (fault : Fault)
  | recoverAccepted
  | tick
  | other
  deriving DecidableEq

/-- The event that an exchange reports, by its call and its reply alone. A
frame intake reports a fault for every error except a null argument. -/
def modeEvent (x : Exchange) : ModeEvent :=
  match x.call, x.reply with
  | .markSelfTestPassed, _ => .selfTestPassed
  | .heartbeat _, .status .ok => .heartbeatAccepted
  | .heartbeat _, .status .errSequence => .fault ⟨faultSequence, false⟩
  | .setpoint _ _, .status .errSequence => .fault ⟨faultSequence, false⟩
  | .setpoint _ _, .status .errRange => .fault ⟨faultCommandRange, false⟩
  | .latchFault word critical, _ => .fault ⟨word, critical⟩
  | .recover, .status .ok => .recoverAccepted
  | .tick, _ => .tick
  | .receive (some _), .status .ok => .other
  | .receive (some _), .status .errFull => .fault ⟨faultQueueOverflow, false⟩
  | .receive (some _), .status _ => .fault ⟨faultInterface, false⟩
  | .spiWrite _ _, .status .errRange => .fault ⟨faultInterface, false⟩
  | _, _ => .other

/-- A fault that the controller latches on its own has a bit and is not
severe; any other fault is the argument of a call. -/
theorem modeEvent_fault (x : Exchange) {fault : Fault} (h : modeEvent x = .fault fault) :
    x.call = .latchFault fault.word fault.critical ∨ (fault.word ≠ 0 ∧ ¬fault.Severe) := by
  unfold modeEvent at h
  split at h
  case h_6 word critical hcall =>
    cases h
    exact .inl hcall
  all_goals cases h
  all_goals exact .inr (by decide)

structure Supervisor where
  timeout : U16
  state : State
  faultBitmap : U32
  selfTestPassed : Bool
  heartbeatSeen : Bool
  elapsedMs : U32
  lastHeartbeatMs : U32

def watchdogFault : Fault := ⟨faultWatchdog, true⟩

theorem watchdogFault_severe : watchdogFault.Severe := .inl rfl

namespace Supervisor

/-- The mode logic right after initialisation. -/
def start (timeout : U16) : Supervisor :=
  { timeout := timeout
    state := .init
    faultBitmap := 0
    selfTestPassed := false
    heartbeatSeen := false
    elapsedMs := 0
    lastHeartbeatMs := 0 }

section Operations

variable (s : Supervisor)

def latch (fault : Fault) : Supervisor :=
  { s with faultBitmap := s.faultBitmap ||| fault.word, state := s.state.latch fault }

def passSelfTest : Supervisor :=
  if s.state = .safe then s
  else
    { s with
      selfTestPassed := true
      state := if s.heartbeatSeen = true ∧ s.faultBitmap = 0 then .operational else s.state }

def acceptHeartbeat : Supervisor :=
  { s with
    heartbeatSeen := true
    lastHeartbeatMs := s.elapsedMs
    state :=
      if s.state ≠ .safe ∧ s.selfTestPassed = true ∧ s.faultBitmap = 0 then .operational
      else s.state }

def Recoverable : Prop :=
  s.state = .degraded ∧ s.faultBitmap ≠ 0 ∧ s.faultBitmap &&& ~~~recoverableFaults = 0

def recovered : Supervisor :=
  { s with faultBitmap := 0, state := .init, selfTestPassed := false, heartbeatSeen := false }

def advance : Supervisor := { s with elapsedMs := s.elapsedMs + 1 }

/-- The clocks differ by more than the timeout while the watchdog supervises. -/
def Expired : Prop :=
  s.selfTestPassed = true ∧ s.timeout.setWidth 32 < s.elapsedMs - s.lastHeartbeatMs

theorem latch_cases (fault : Fault) :
    (s.latch fault = { s with faultBitmap := s.faultBitmap ||| fault.word, state := .safe } ∧
      (fault.Severe ∨ s.state = .safe)) ∨
    (s.latch fault = { s with faultBitmap := s.faultBitmap ||| fault.word, state := .degraded } ∧
      ¬fault.Severe ∧ s.state ≠ .safe) := by
  unfold latch State.latch
  by_cases h : fault.Severe ∨ s.state = .safe
  · left
    rw [if_pos h]
    exact ⟨rfl, h⟩
  · right
    rw [if_neg h]
    exact ⟨rfl, not_or.mp h⟩

theorem passSelfTest_cases :
    (s.passSelfTest = s ∧ s.state = .safe) ∨
    (s.passSelfTest = { s with selfTestPassed := true, state := .operational } ∧
      s.state ≠ .safe ∧ s.heartbeatSeen = true ∧ s.faultBitmap = 0) ∨
    (s.passSelfTest = { s with selfTestPassed := true } ∧
      s.state ≠ .safe ∧ ¬(s.heartbeatSeen = true ∧ s.faultBitmap = 0)) := by
  unfold passSelfTest
  by_cases hsafe : s.state = .safe
  · exact .inl ⟨if_pos hsafe, hsafe⟩
  · right
    rw [if_neg hsafe]
    by_cases hready : s.heartbeatSeen = true ∧ s.faultBitmap = 0
    · left
      rw [if_pos hready]
      exact ⟨rfl, hsafe, hready⟩
    · right
      rw [if_neg hready]
      exact ⟨rfl, hsafe, hready⟩

theorem acceptHeartbeat_cases :
    (s.acceptHeartbeat =
        { s with heartbeatSeen := true, lastHeartbeatMs := s.elapsedMs, state := .operational } ∧
      s.state ≠ .safe ∧ s.selfTestPassed = true ∧ s.faultBitmap = 0) ∨
    (s.acceptHeartbeat = { s with heartbeatSeen := true, lastHeartbeatMs := s.elapsedMs } ∧
      ¬(s.state ≠ .safe ∧ s.selfTestPassed = true ∧ s.faultBitmap = 0)) := by
  unfold acceptHeartbeat
  by_cases hready : s.state ≠ .safe ∧ s.selfTestPassed = true ∧ s.faultBitmap = 0
  · left
    rw [if_pos hready]
    exact ⟨rfl, hready⟩
  · right
    rw [if_neg hready]
    exact ⟨rfl, hready⟩

end Operations

/-- One event of the mode logic. A tick either advances the clock or latches
the watchdog's fault as well. -/
inductive Step : Supervisor → ModeEvent → Supervisor → Prop
  | selfTestPassed (s) : Step s .selfTestPassed s.passSelfTest
  | heartbeatAccepted (s) : Step s .heartbeatAccepted s.acceptHeartbeat
  | fault (s) (fault : Fault) : Step s (.fault fault) (s.latch fault)
  | recoverAccepted (s) (h : s.Recoverable) : Step s .recoverAccepted s.recovered
  | tick (s) (h : ¬s.advance.Expired) : Step s .tick s.advance
  | expire (s) (h : s.advance.Expired) : Step s .tick (s.advance.latch watchdogFault)
  | other (s) : Step s .other s

end Supervisor

/-- The part of the controller that the mode logic reads and writes. -/
def supervisor (c : Controller) : Supervisor :=
  { timeout := c.config.watchdogTimeoutMs
    state := c.state
    faultBitmap := c.faultBitmap
    selfTestPassed := c.selfTestPassed
    heartbeatSeen := c.heartbeatSeen
    elapsedMs := c.elapsedMs
    lastHeartbeatMs := c.lastHeartbeatMs }

theorem supervisor_controllerInit (memory : Controller) {config : Config} (h : config.Valid) :
    supervisor (controllerInit memory (some config)) =
      Supervisor.start config.watchdogTimeoutMs := by
  have hvalid : configIsValid (some config) = .ok true := h
  simp only [controllerInit, if_pos hvalid]
  rfl

/-- Every way a call ends is a transition of the mode logic, the one that the
exchange reports. -/
theorem Answers.supervisor_step {c c' : Controller} {x : Exchange} (h : Answers c x c') :
    (supervisor c).Step (modeEvent x) (supervisor c') := by
  cases h with
  | selfTestIgnored hsafe =>
      have hstep := Supervisor.Step.selfTestPassed (supervisor c)
      have hsame : (supervisor c).passSelfTest = supervisor c := if_pos hsafe
      rwa [hsame] at hstep
  | selfTestPassed hsafe =>
      have hstep := Supervisor.Step.selfTestPassed (supervisor c)
      have hpassed : (supervisor c).passSelfTest = _ := if_neg hsafe
      rwa [hpassed] at hstep
  | heartbeatAccepted _ => exact .heartbeatAccepted (supervisor c)
  | recovered hrecoverable => exact .recoverAccepted (supervisor c) hrecoverable
  | ticked h => exact .tick (supervisor c) h
  | tripped h => exact .expire (supervisor c) h
  | heartbeatStale _ | setpointStale _ _ | setpointOutOfRange _ _ _ | faultLatched
  | frameInvalid _ | interfaceDisabled _ _ | queueFull _ _ | writeOutOfRange _ =>
      exact .fault (supervisor c) _
  | _ => exact .other (supervisor c)

/-- Every answered call is the transition of the mode logic that its exchange
reports. -/
theorem step_supervisor (c : Controller) (call : Call) :
    (supervisor c).Step (modeEvent ⟨call, (step c call).1⟩) (supervisor (step c call).2) :=
  (step_answers c call).supervisor_step

/-- The mode events of a history, latest first. -/
def modeEvents (history : History) : List ModeEvent := history.map modeEvent

/-- Every run reads as a trace of the mode logic. -/
theorem run_supervisor (memory : Controller) {config : Config} (h : config.Valid)
    (calls : List Call) :
    Machine.Trace Supervisor.Step (Supervisor.start config.watchdogTimeoutMs)
      (modeEvents (run memory config calls).history)
      (supervisor (run memory config calls).state) := by
  rw [← supervisor_controllerInit memory h]
  exact Machine.run_refines step _ Supervisor.Step supervisor modeEvent step_supervisor calls

end Esqh
