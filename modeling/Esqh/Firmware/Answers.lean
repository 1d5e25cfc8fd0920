import Esqh.Firmware.Calls

/-!
Everything that one call can do, as one relation between the controller before
it, the exchange, and the controller after it. Each way a call can end has its
own constructor, with the guard that leads there and the resulting controller
written out. What a run keeps is proved by cases on it.
-/

namespace Esqh

/-- The controller with one more fault latched. -/
def Controller.latch (c : Controller) (fault : Fault) : Controller :=
  { c with
    faultBitmap := c.faultBitmap ||| fault.word
    state := c.state.latch fault }

theorem latchFault_eq_latch (c : Controller) (fault : U32) (critical : Bool) :
    latchFault c fault critical = c.latch ⟨fault, critical⟩ := latchFault_eq c fault critical

/-- The controller with one more frame counted as rejected. -/
def Controller.countRejected (c : Controller) : Controller :=
  { c with counters := { c.counters with rejected := c.counters.rejected + 1 } }

theorem rejectFrame_eq (c : Controller) (fault : U32) :
    rejectFrame c fault = c.countRejected.latch ⟨fault, false⟩ := latchFault_eq _ fault false

/-- An answered call. -/
inductive Answers (c : Controller) : Exchange → Controller → Prop
  | selfTestIgnored (hsafe : c.state = .safe) : Answers c ⟨.markSelfTestPassed, .void⟩ c
  | selfTestPassed (hsafe : c.state ≠ .safe) :
      Answers c ⟨.markSelfTestPassed, .void⟩
        { c with
          selfTestPassed := true
          state :=
            if c.heartbeatSeen = true ∧ c.faultBitmap = 0 then .operational else c.state }
  | heartbeatStale {sequence : U16} (hstale : sequence = 0 ∨ sequence ≤ c.lastCommandSequence) :
      Answers c ⟨.heartbeat sequence, .status .errSequence⟩ (c.latch ⟨faultSequence, false⟩)
  | heartbeatAccepted {sequence : U16} (hfresh : c.lastCommandSequence < sequence) :
      Answers c ⟨.heartbeat sequence, .status .ok⟩
        { c with
          lastCommandSequence := sequence
          heartbeatSeen := true
          lastHeartbeatMs := c.elapsedMs
          state :=
            if c.state ≠ .safe ∧ c.selfTestPassed = true ∧ c.faultBitmap = 0 then .operational
            else c.state }
  | setpointRefused {sequence : U16} {value : Int16} (hstate : c.state ≠ .operational) :
      Answers c ⟨.setpoint sequence value, .status .errState⟩ c
  | setpointStale {sequence : U16} {value : Int16} (hstate : c.state = .operational)
      (hstale : sequence = 0 ∨ sequence ≤ c.lastCommandSequence) :
      Answers c ⟨.setpoint sequence value, .status .errSequence⟩ (c.latch ⟨faultSequence, false⟩)
  | setpointOutOfRange {sequence : U16} {value : Int16} (hstate : c.state = .operational)
      (hfresh : c.lastCommandSequence < sequence)
      (hvalue : value < c.config.minimumSetpoint ∨ value > c.config.maximumSetpoint) :
      Answers c ⟨.setpoint sequence value, .status .errRange⟩
        ({ c with lastCommandSequence := sequence }.latch ⟨faultCommandRange, false⟩)
  | setpointAccepted {sequence : U16} {value : Int16} (hstate : c.state = .operational)
      (hfresh : c.lastCommandSequence < sequence)
      (hminimum : c.config.minimumSetpoint ≤ value) (hmaximum : value ≤ c.config.maximumSetpoint) :
      Answers c ⟨.setpoint sequence value, .status .ok⟩
        { c with lastCommandSequence := sequence, setpoint := value }
  | faultLatched {fault : U32} {critical : Bool} :
      Answers c ⟨.latchFault fault critical, .void⟩ (c.latch ⟨fault, critical⟩)
  | recoverRefused (h : ¬c.Recoverable) : Answers c ⟨.recover, .status .errState⟩ c
  | recovered (h : c.Recoverable) :
      Answers c ⟨.recover, .status .ok⟩
        { c with
          faultBitmap := 0
          state := .init
          selfTestPassed := false
          heartbeatSeen := false }
  | ticked (h : ¬c.Expired) : Answers c ⟨.tick, .void⟩ (advanceClocks c)
  | tripped (h : c.Expired) :
      Answers c ⟨.tick, .void⟩ ((advanceClocks c).latch ⟨faultWatchdog, true⟩)
  | noFrame : Answers c ⟨.receive none, .status .errArgument⟩ c
  | frameInvalid {frame : Frame} (hinvalid : ¬frame.Valid) :
      Answers c ⟨.receive (some frame), .status .errRange⟩
        (c.countRejected.latch ⟨faultInterface, false⟩)
  | interfaceDisabled {frame : Frame} (hvalid : frame.Valid)
      (hdisabled : c.config.enabledInterfaceMask &&& enabledBit frame.interfaceType = 0) :
      Answers c ⟨.receive (some frame), .status .errState⟩
        (c.countRejected.latch ⟨faultInterface, false⟩)
  | queueFull {frame : Frame} (hadmits : c.config.Admits frame)
      (hfull : frameQueueCapacity ≤ c.queue.count.toNat) :
      Answers c ⟨.receive (some frame), .status .errFull⟩
        (c.countRejected.latch ⟨faultQueueOverflow, false⟩)
  | frameAccepted {frame : Frame} (hadmits : c.config.Admits frame)
      (hspace : c.queue.count.toNat < frameQueueCapacity) :
      Answers c ⟨.receive (some frame), .status .ok⟩
        { c with
          queue := (queuePush c.queue (some frame)).2
          counters := countAccepted c.counters frame.interfaceType }
  | writeOutOfRange {address value : U8} (haddress : spiRegisterCount ≤ address.toNat) :
      Answers c ⟨.spiWrite address value, .status .errRange⟩ (c.latch ⟨faultInterface, false⟩)
  | registerWritten {address value : U8} (haddress : address.toNat < spiRegisterCount) :
      Answers c ⟨.spiWrite address value, .status .ok⟩
        { c with
          spiRegisters := c.spiRegisters.setIfInBounds address.toNat value
          counters := { c.counters with spiAccepted := c.counters.spiAccepted + 1 } }
  | noValue {address : U8} : Answers c ⟨.spiRead address none, .value .errArgument none⟩ c
  | readOutOfRange {address byte : U8} (haddress : spiRegisterCount ≤ address.toNat) :
      Answers c ⟨.spiRead address (some byte), .value .errRange (some byte)⟩ c
  | registerRead {address byte : U8} (haddress : address.toNat < spiRegisterCount) :
      Answers c ⟨.spiRead address (some byte), .value .ok (some c.spiRegisters[address.toNat])⟩ c
  | noDestination : Answers c ⟨.queuePop none, .popped .errArgument none⟩ c
  | queueEmpty {destination : Frame} (hempty : c.queue.count = 0) :
      Answers c ⟨.queuePop (some destination), .popped .errEmpty (some destination)⟩ c
  | framePopped {destination frame : Frame} (hne : c.queue.count ≠ 0)
      (hframe : (queuePop c.queue (some destination)).2.2 = some frame) :
      Answers c ⟨.queuePop (some destination), .popped .ok (some frame)⟩
        { c with queue := (queuePop c.queue (some destination)).2.1 }
  | noOutput : Answers c ⟨.telemetry none, .telemetry 0 (.ok none)⟩ c
  | recordWritten {output : Vector U8 telemetrySize} :
      Answers c
        ⟨.telemetry (some output), .telemetry telemetrySize
          ((writeTelemetry { c with telemetrySequence := c.telemetrySequence + 1 } output).map
            some)⟩
        { c with telemetrySequence := c.telemetrySequence + 1 }

section Calls

variable (c : Controller)

theorem step_answers_setpoint (sequence : U16) (value : Int16) :
    Answers c ⟨.setpoint sequence value, .status (setpoint c sequence value).1⟩
      (setpoint c sequence value).2 := by
  unfold setpoint
  by_cases hstate : c.state = .operational
  · rw [if_neg (not_not.mpr hstate)]
    rcases acceptSequence_cases c sequence with ⟨h, hstale⟩ | ⟨h, hfresh⟩
    · simp only [h, latchFault_eq_latch]
      exact .setpointStale hstate hstale
    · simp only [h]
      by_cases hvalue : value < c.config.minimumSetpoint ∨ value > c.config.maximumSetpoint
      · simp only [if_pos hvalue, latchFault_eq_latch]
        exact .setpointOutOfRange hstate hfresh hvalue
      · simp only [if_neg hvalue]
        obtain ⟨hminimum, hmaximum⟩ := not_or.mp hvalue
        exact .setpointAccepted hstate hfresh (Int16.not_lt.mp hminimum) (Int16.not_lt.mp hmaximum)
  · rw [if_pos hstate]
    exact .setpointRefused hstate

theorem step_answers_receive (frame : Frame) :
    Answers c ⟨.receive (some frame), .status (receive c (some frame)).1⟩
      (receive c (some frame)).2 := by
  by_cases hadmits : c.config.Admits frame
  · rw [receive_of_admits c frame hadmits]
    by_cases hfull : c.queue.count.toNat ≥ frameQueueCapacity
    · rw [if_pos hfull, rejectFrame_eq]
      exact .queueFull hadmits hfull
    · rw [if_neg hfull]
      exact .frameAccepted hadmits (Nat.lt_of_not_le hfull)
  by_cases hvalid : frame.Valid
  · have hdisabled : c.config.enabledInterfaceMask &&& enabledBit frame.interfaceType = 0 := by
      by_contra henabled
      exact hadmits (Config.admits_iff.mpr ⟨hvalid, henabled⟩)
    rw [receive_of_disabled c frame hvalid hdisabled, rejectFrame_eq]
    exact .interfaceDisabled hvalid hdisabled
  · rw [receive_of_invalid c frame hvalid, rejectFrame_eq]
    exact .frameInvalid hvalid

theorem step_answers_queuePop (destination : Frame) :
    Answers c ⟨.queuePop (some destination), (step c (.queuePop (some destination))).1⟩
      (step c (.queuePop (some destination))).2 := by
  by_cases hempty : c.queue.count = 0
  · have h : queuePop c.queue (some destination) = (.errEmpty, c.queue, some destination) :=
      if_pos hempty
    simp only [step, h]
    exact .queueEmpty hempty
  · obtain ⟨queue, frame, h⟩ :
        ∃ queue frame, queuePop c.queue (some destination) = (.ok, queue, some frame) :=
      ⟨_, _, if_neg hempty⟩
    have hqueue : (queuePop c.queue (some destination)).2.1 = queue := by rw [h]
    simp only [step, h]
    rw [← hqueue]
    exact .framePopped hempty (by rw [h])

/-- Every call is answered in one of these ways. -/
theorem step_answers (call : Call) : Answers c ⟨call, (step c call).1⟩ (step c call).2 := by
  cases call with
  | markSelfTestPassed =>
      by_cases hsafe : c.state = .safe
      · simp only [step, markSelfTestPassed_of_safe c hsafe]
        exact .selfTestIgnored hsafe
      · simp only [step, markSelfTestPassed_of_not_safe c hsafe]
        exact .selfTestPassed hsafe
  | heartbeat sequence =>
      rcases heartbeat_cases c sequence with ⟨h, hstale⟩ | ⟨h, hfresh⟩
      · simp only [step, h, latchFault_eq_latch]
        exact .heartbeatStale hstale
      · simp only [step, h]
        exact .heartbeatAccepted hfresh
  | setpoint sequence value => exact step_answers_setpoint c sequence value
  | latchFault fault critical =>
      simp only [step, latchFault_eq_latch]
      exact .faultLatched
  | recover =>
      rcases recover_cases c with ⟨h, hrefused⟩ | ⟨h, hrecoverable⟩
      · simp only [step, h]
        exact .recoverRefused hrefused
      · simp only [step, h]
        exact .recovered hrecoverable
  | tick =>
      by_cases h : c.Expired
      · simp only [step, tick_of_expired c h, latchFault_eq_latch]
        exact .tripped h
      · simp only [step, tick_of_not_expired c h]
        exact .ticked h
  | receive frame =>
      cases frame with
      | none => exact .noFrame
      | some frame => exact step_answers_receive c frame
  | spiWrite address value =>
      by_cases haddress : address.toNat ≥ spiRegisterCount
      · have h : spiWrite c address value = (.errRange, latchFault c faultInterface false) :=
          if_pos haddress
        simp only [step, h, latchFault_eq_latch]
        exact .writeOutOfRange haddress
      · have h : spiWrite c address value = (.ok, _) := if_neg haddress
        simp only [step, h]
        exact .registerWritten (Nat.lt_of_not_le haddress)
  | spiRead address value =>
      cases value with
      | none => exact .noValue
      | some byte =>
          by_cases haddress : address.toNat ≥ spiRegisterCount
          · have h : spiRead c address (some byte) = (.errRange, some byte) := if_pos haddress
            simp only [step, h]
            exact .readOutOfRange haddress
          · have hlt : address.toNat < spiRegisterCount := Nat.lt_of_not_le haddress
            have h : spiRead c address (some byte) = (.ok, some c.spiRegisters[address.toNat]) := by
              simp [spiRead, haddress, Vector.getElem?_eq_getElem hlt]
            simp only [step, h]
            exact .registerRead hlt
  | queuePop frame =>
      cases frame with
      | none => exact .noDestination
      | some destination => exact step_answers_queuePop c destination
  | telemetry output =>
      cases output with
      | none => exact .noOutput
      | some output => exact .recordWritten

end Calls

/-- A call is answered in one way only. -/
theorem Answers.unique {c : Controller} {call : Call} {reply reply' : Reply} {c' c'' : Controller}
    (h : Answers c ⟨call, reply⟩ c') (h' : Answers c ⟨call, reply'⟩ c'') :
    reply = reply' ∧ c' = c'' := by
  have hsequence {sequence : U16} (hstale : sequence = 0 ∨ sequence ≤ c.lastCommandSequence) :
      ¬c.lastCommandSequence < sequence := by
    rcases hstale with rfl | hle
    · exact BitVec.not_lt_zero
    · exact BitVec.not_lt.mpr hle
  have hlimits {value : Int16}
      (hvalue : value < c.config.minimumSetpoint ∨ value > c.config.maximumSetpoint) :
      ¬(c.config.minimumSetpoint ≤ value ∧ value ≤ c.config.maximumSetpoint) := by
    rintro ⟨hminimum, hmaximum⟩
    exact hvalue.elim (Int16.not_lt.mpr hminimum) (Int16.not_lt.mpr hmaximum)
  cases h <;> cases h' <;> grind [Config.admits_iff]

/-- `Answers` says exactly what a call does. -/
theorem Answers.step_eq {c c' : Controller} {x : Exchange} (h : Answers c x c') :
    step c x.call = (x.reply, c') := by
  obtain ⟨hreply, hstate⟩ := (step_answers c x.call).unique h
  exact Prod.ext hreply hstate

/-- Every run is a trace of answered calls. -/
theorem run_answers (memory : Controller) (config : Config) (calls : List Call) :
    Machine.Trace Answers (controllerInit memory (some config)) (run memory config calls).history
      (run memory config calls).state := by
  have h := Machine.run_refines step (controllerInit memory (some config)) Answers id id
    step_answers calls
  rwa [List.map_id] at h

/-- What every answered call keeps holds after every run. -/
theorem run_keeps (memory : Controller) (config : Config) (P : History → Controller → Prop)
    (hstart : P [] (controllerInit memory (some config)))
    (hstep : ∀ history c x c', P history c → Answers c x c' → P (x :: history) c')
    (calls : List Call) :
    P (run memory config calls).history (run memory config calls).state :=
  (run_answers memory config calls).invariant P hstart hstep

theorem Answers.config {c c' : Controller} {x : Exchange} (h : Answers c x c') :
    c'.config = c.config := by
  cases h <;> rfl

/-- The configuration stays the one of the initialisation. -/
theorem run_config (memory : Controller) {config : Config} (hconfig : config.Valid)
    (calls : List Call) : (run memory config calls).state.config = config := by
  refine run_keeps memory config (fun _ c => c.config = config) ?_ ?_ calls
  · have hvalid : configIsValid (some config) = .ok true := hconfig
    rw [controllerInit, if_pos hvalid]
  · intro _ c _ c' h hanswer
    exact hanswer.config.trans h

end Esqh
