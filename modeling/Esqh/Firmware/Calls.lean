import Esqh.Firmware.Message
import Esqh.Firmware.System

/-!
What each call of the controller can do, as one equation for every way it can
end. Later modules reason from these and never open the calls again.
-/

namespace Esqh

open Memory

variable (c : Controller)

/-- A fault is severe when it is critical or carries a bit that recovery may
not clear. -/
structure Fault where
  word : U32
  critical : Bool
  deriving DecidableEq

def Fault.Severe (fault : Fault) : Prop :=
  fault.critical = true ∨ fault.word &&& ~~~recoverableFaults ≠ 0

instance Fault.decidableSevere (fault : Fault) : Decidable fault.Severe :=
  inferInstanceAs (Decidable (_ ∨ _))

/-- The state that latching a fault leads to. -/
def State.latch (state : State) (fault : Fault) : State :=
  if fault.Severe ∨ state = .safe then .safe else .degraded

theorem State.latch_of_severe (state : State) {fault : Fault} (h : fault.Severe) :
    state.latch fault = .safe := if_pos (.inl h)

@[simp] theorem State.latch_safe (fault : Fault) : State.safe.latch fault = .safe :=
  if_pos (.inr rfl)

theorem State.latch_of_not_severe {state : State} {fault : Fault} (h : ¬fault.Severe)
    (hstate : state ≠ .safe) : state.latch fault = .degraded :=
  if_neg (not_or.mpr ⟨h, hstate⟩)

theorem latchFault_eq (fault : U32) (critical : Bool) :
    latchFault c fault critical =
      { c with
        faultBitmap := c.faultBitmap ||| fault
        state := c.state.latch ⟨fault, critical⟩ } := by
  unfold latchFault
  by_cases hsevere : critical = true ∨ fault &&& ~~~recoverableFaults ≠ 0
  · have hlatch : c.state.latch ⟨fault, critical⟩ = .safe :=
      State.latch_of_severe c.state hsevere
    rw [hlatch]
    exact if_pos hsevere
  · apply (if_neg hsevere).trans
    by_cases hstate : c.state = .safe
    · apply (if_neg (not_not.mpr hstate)).trans
      rw [hstate, State.latch_safe, ← hstate]
    · have hlatch : c.state.latch ⟨fault, critical⟩ = .degraded :=
        State.latch_of_not_severe hsevere hstate
      rw [hlatch]
      exact if_pos hstate

theorem acceptSequence_cases (sequence : U16) :
    (acceptSequence c sequence = (.errSequence, latchFault c faultSequence false) ∧
      (sequence = 0 ∨ sequence ≤ c.lastCommandSequence)) ∨
    (acceptSequence c sequence = (.ok, { c with lastCommandSequence := sequence }) ∧
      c.lastCommandSequence < sequence) := by
  unfold acceptSequence
  by_cases h : sequence = 0 ∨ sequence ≤ c.lastCommandSequence
  · exact .inl ⟨if_pos h, h⟩
  · refine .inr ⟨if_neg h, ?_⟩
    exact BitVec.not_le.mp (not_or.mp h).2

theorem heartbeat_cases (sequence : U16) :
    (heartbeat c sequence = (.errSequence, latchFault c faultSequence false) ∧
      (sequence = 0 ∨ sequence ≤ c.lastCommandSequence)) ∨
    (heartbeat c sequence =
      (.ok, { c with
        lastCommandSequence := sequence
        heartbeatSeen := true
        lastHeartbeatMs := c.elapsedMs
        state :=
          if c.state ≠ .safe ∧ c.selfTestPassed = true ∧ c.faultBitmap = 0 then .operational
          else c.state }) ∧ c.lastCommandSequence < sequence) := by
  unfold heartbeat
  rcases acceptSequence_cases c sequence with ⟨h, hstale⟩ | ⟨h, hfresh⟩
  · left
    rw [h]
    exact ⟨rfl, hstale⟩
  · right
    rw [h]
    refine ⟨?_, hfresh⟩
    by_cases hready : c.state ≠ .safe ∧ c.selfTestPassed = true ∧ c.faultBitmap = 0
    · rw [if_pos hready]
      exact if_pos hready
    · rw [if_neg hready]
      exact if_neg hready

theorem setpoint_cases (sequence : U16) (value : Int16) :
    setpoint c sequence value = (.errState, c) ∨
    (setpoint c sequence value = (.errSequence, latchFault c faultSequence false) ∧
      (sequence = 0 ∨ sequence ≤ c.lastCommandSequence)) ∨
    (setpoint c sequence value =
      (.errRange, latchFault { c with lastCommandSequence := sequence } faultCommandRange false) ∧
      c.lastCommandSequence < sequence) ∨
    (setpoint c sequence value =
      (.ok, { c with lastCommandSequence := sequence, setpoint := value }) ∧
      c.lastCommandSequence < sequence) := by
  unfold setpoint
  by_cases hstate : c.state ≠ .operational
  · exact .inl (if_pos hstate)
  · right
    rw [if_neg hstate]
    rcases acceptSequence_cases c sequence with ⟨h, hstale⟩ | ⟨h, hfresh⟩
    · left
      rw [h]
      exact ⟨rfl, hstale⟩
    · right
      rw [h]
      by_cases hvalue : value < c.config.minimumSetpoint ∨ value > c.config.maximumSetpoint
      · exact .inl ⟨if_pos hvalue, hfresh⟩
      · exact .inr ⟨if_neg hvalue, hfresh⟩

/-- The states in which recovery succeeds. -/
def Controller.Recoverable : Prop :=
  c.state = .degraded ∧ c.faultBitmap ≠ 0 ∧ c.faultBitmap &&& ~~~recoverableFaults = 0

theorem recover_cases :
    (recover c = (.errState, c) ∧ ¬c.Recoverable) ∨
    (recover c =
      (.ok, { c with
        faultBitmap := 0
        state := .init
        selfTestPassed := false
        heartbeatSeen := false }) ∧ c.Recoverable) := by
  unfold recover
  by_cases hguard : c.state ≠ .degraded ∨ c.faultBitmap = 0
  · left
    refine ⟨if_pos hguard, ?_⟩
    rintro ⟨hstate, hbits, _⟩
    exact hguard.elim (fun h => h hstate) hbits
  · rw [if_neg hguard]
    obtain ⟨hstate, hbits⟩ := not_or.mp hguard
    by_cases hrest : c.faultBitmap &&& ~~~recoverableFaults = 0
    · right
      refine ⟨?_, not_not.mp hstate, hbits, hrest⟩
      rw [if_neg (not_not.mpr hrest), hrest]
    · left
      exact ⟨if_pos hrest, fun h => hrest h.2.2⟩

theorem recover_ok_iff : (recover c).1 = .ok ↔ c.Recoverable := by
  rcases recover_cases c with ⟨h, hrecoverable⟩ | ⟨h, hrecoverable⟩ <;> simp [h, hrecoverable]

theorem markSelfTestPassed_of_safe (hstate : c.state = .safe) : markSelfTestPassed c = c :=
  if_neg (not_not.mpr hstate)

theorem markSelfTestPassed_of_not_safe (hstate : c.state ≠ .safe) :
    markSelfTestPassed c =
      { c with
        selfTestPassed := true
        state :=
          if c.heartbeatSeen = true ∧ c.faultBitmap = 0 then .operational else c.state } := by
  apply (if_pos hstate).trans
  by_cases hready : c.heartbeatSeen = true ∧ c.faultBitmap = 0
  · simp only [if_pos hready]
  · simp only [if_neg hready]

/-- The watchdog's condition, on the clocks after the tick's bookkeeping. -/
def Controller.Expired : Prop :=
  c.selfTestPassed = true ∧
    c.elapsedMs + 1 - c.lastHeartbeatMs > c.config.watchdogTimeoutMs.setWidth 32

theorem tick_of_expired (h : c.Expired) :
    tick c = latchFault (advanceClocks c) faultWatchdog true := if_pos h

theorem tick_of_not_expired (h : ¬c.Expired) : tick c = advanceClocks c := if_neg h

/-- The frames that the intake hands to the queue: the encoder's rules and an
interface that the configuration enables. -/
def Config.Admits (config : Config) (frame : Frame) : Prop :=
  (interfaceUart ≤ frame.interfaceType ∧ frame.interfaceType ≤ interfaceEthernet) ∧
    frame.payloadLength ≤ payloadLimit frame.interfaceType ∧
    (frame.interfaceType = interfaceCan → frame.messageId ≤ 0x07ff) ∧
    config.enabledInterfaceMask &&& enabledBit frame.interfaceType ≠ 0

theorem Config.admits_iff {config : Config} {frame : Frame} :
    config.Admits frame ↔
      frame.Valid ∧ config.enabledInterfaceMask &&& enabledBit frame.interfaceType ≠ 0 := by
  simp only [Config.Admits, Frame.Valid, and_assoc]

/-- A frame that no encoder accepts is out of range. -/
theorem receive_of_invalid (frame : Frame) (h : ¬frame.Valid) :
    receive c (some frame) = (.errRange, rejectFrame c faultInterface) := by
  unfold receive
  by_cases hshape : frame.interfaceType < interfaceUart ∨
      frame.interfaceType > interfaceEthernet ∨
      frame.payloadLength > payloadLimit frame.interfaceType
  · exact if_pos hshape
  · simp only [if_neg hshape]
    by_cases hid : frame.interfaceType = interfaceCan ∧ frame.messageId > 0x07ff
    · exact if_pos hid
    · obtain ⟨hlow, hhigh, hlength⟩ : _ ∧ _ ∧ _ := by
        simpa only [not_or, not_lt, BitVec.not_lt, gt_iff_lt] using hshape
      refine absurd ⟨⟨hlow, hhigh⟩, hlength, ?_⟩ h
      intro hcan
      exact BitVec.not_lt.mp (fun hgreater => hid ⟨hcan, hgreater⟩)

/-- The intake's guards let a valid frame through to the enabled mask and the
queue. -/
theorem receive_of_valid (frame : Frame) (h : frame.Valid) :
    receive c (some frame) =
      if c.config.enabledInterfaceMask &&& enabledBit frame.interfaceType = 0 then
        (.errState, rejectFrame c faultInterface)
      else if c.queue.count.toNat ≥ frameQueueCapacity then
        (.errFull, rejectFrame c faultQueueOverflow)
      else
        (.ok, { c with
          queue := (queuePush c.queue (some frame)).2
          counters := countAccepted c.counters frame.interfaceType }) := by
  obtain ⟨⟨hlow, hhigh⟩, hlength, hid⟩ := h
  have hshape : ¬(frame.interfaceType < interfaceUart ∨
      frame.interfaceType > interfaceEthernet ∨
      frame.payloadLength > payloadLimit frame.interfaceType) := by
    simpa only [not_or, not_lt, BitVec.not_lt, gt_iff_lt] using ⟨hlow, hhigh, hlength⟩
  have hcan : ¬(frame.interfaceType = interfaceCan ∧ frame.messageId > 0x07ff) :=
    fun hcan => BitVec.not_lt.mpr (hid hcan.1) hcan.2
  unfold receive
  simp only [if_neg hshape, if_neg hcan]
  by_cases hfull : c.queue.count.toNat ≥ frameQueueCapacity
  · simp only [queuePush, if_pos hfull]
  · simp only [queuePush, if_neg hfull]

theorem receive_of_disabled (frame : Frame) (h : frame.Valid)
    (hdisabled : c.config.enabledInterfaceMask &&& enabledBit frame.interfaceType = 0) :
    receive c (some frame) = (.errState, rejectFrame c faultInterface) := by
  rw [receive_of_valid c frame h, if_pos hdisabled]

theorem receive_of_not_admits (frame : Frame) (h : ¬c.config.Admits frame) :
    ∃ status, (status = .errRange ∨ status = .errState) ∧
      receive c (some frame) = (status, rejectFrame c faultInterface) := by
  by_cases hvalid : frame.Valid
  · have hdisabled : c.config.enabledInterfaceMask &&& enabledBit frame.interfaceType = 0 := by
      by_contra henabled
      exact h (Config.admits_iff.mpr ⟨hvalid, henabled⟩)
    exact ⟨.errState, .inr rfl, receive_of_disabled c frame hvalid hdisabled⟩
  · exact ⟨.errRange, .inl rfl, receive_of_invalid c frame hvalid⟩

theorem receive_of_admits (frame : Frame) (h : c.config.Admits frame) :
    receive c (some frame) =
      if c.queue.count.toNat ≥ frameQueueCapacity then
        (.errFull, rejectFrame c faultQueueOverflow)
      else
        (.ok, { c with
          queue := (queuePush c.queue (some frame)).2
          counters := countAccepted c.counters frame.interfaceType }) := by
  obtain ⟨hvalid, henabled⟩ := Config.admits_iff.mp h
  rw [receive_of_valid c frame hvalid, if_neg henabled]

/-- A frame is admitted and stored, or counted as rejected with its fault
latched; nothing else happens to the controller. -/
theorem receive_cases (frame : Frame) :
    (∃ status, (status = .errRange ∨ status = .errState) ∧
      receive c (some frame) = (status, rejectFrame c faultInterface)) ∨
    receive c (some frame) = (.errFull, rejectFrame c faultQueueOverflow) ∨
    receive c (some frame) =
      (.ok, { c with
        queue := (queuePush c.queue (some frame)).2
        counters := countAccepted c.counters frame.interfaceType }) := by
  by_cases h : c.config.Admits frame
  · right
    rw [receive_of_admits c frame h]
    by_cases hfull : c.queue.count.toNat ≥ frameQueueCapacity
    · exact .inl (if_pos hfull)
    · exact .inr (if_neg hfull)
  · exact .inl (receive_of_not_admits c frame h)

end Esqh
