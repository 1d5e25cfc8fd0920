import Esqh.Firmware.CommandedValues
import Esqh.Firmware.FaultMemory
import Esqh.Firmware.Intake
import Esqh.Firmware.QueueRefinement
import Esqh.Firmware.Telemetry

/-!
What the controller replies, told from the calls and replies so far. Nothing of
the controller's memory is left in it: no bitmap, no ring, no clock and no
counter, only what happened.
-/

namespace Esqh

open Memory

section Mode

variable (timeout : U16) (events : List ModeEvent)

/-- Whether the self-test or a heartbeat came after every reported fault since
the last accepted recovery. -/
def startedSinceFault : List ModeEvent → Bool
  | [] => false
  | .selfTestPassed :: _ => true
  | .heartbeatAccepted :: _ => true
  | .fault _ :: _ => false
  | .recoverAccepted :: _ => false
  | .tick :: earlier => startedSinceFault earlier
  | .other :: earlier => startedSinceFault earlier

/-- The mode after some events, whether or not the faults have bits. A fault
without one degrades the mode until the start-up is completed again. -/
def exactMode : State :=
  if ∃ fault ∈ faults timeout events, fault.Severe then .safe
  else if unionOfWords (faultsSinceRecover timeout events) = 0 ∧
      startedSinceFault events = true ∧ .selfTestPassed ∈ sinceRecover events ∧
      .heartbeatAccepted ∈ sinceRecover events then .operational
  else if faultsSinceRecover timeout events = [] then .init
  else .degraded

end Mode

namespace Supervisor

variable {timeout : U16} {events : List ModeEvent} {s s' : Supervisor} {event : ModeEvent}

/-- The mode outside the safe state, by the flags and the bitmap. -/
def unlockedMode (timeout : U16) (events : List ModeEvent) (s : Supervisor) : State :=
  if s.faultBitmap = 0 ∧ startedSinceFault events = true ∧ s.selfTestPassed = true ∧
      s.heartbeatSeen = true then .operational
  else if faultsSinceRecover timeout events = [] then .init
  else .degraded

theorem unlockedMode_passSelfTest (hsafe : s.state ≠ .safe)
    (h : s.state = s.unlockedMode timeout events) :
    s.passSelfTest.state = s.passSelfTest.unlockedMode timeout (.selfTestPassed :: events) := by
  rcases s.passSelfTest_cases with ⟨_, hlocked⟩ | ⟨heq, _, hseen, hbits⟩ | ⟨heq, _, hnot⟩
  · exact absurd hlocked hsafe
  · rw [heq]
    exact (if_pos ⟨hbits, rfl, rfl, hseen⟩).symm
  · have hbefore : ¬(s.faultBitmap = 0 ∧ startedSinceFault events = true ∧
        s.selfTestPassed = true ∧ s.heartbeatSeen = true) :=
      fun hall => hnot ⟨hall.2.2.2, hall.1⟩
    rw [unlockedMode, if_neg hbefore] at h
    rw [heq]
    exact h.trans (if_neg fun hall => hnot ⟨hall.2.2.2, hall.1⟩).symm

theorem unlockedMode_acceptHeartbeat (hsafe : s.state ≠ .safe)
    (h : s.state = s.unlockedMode timeout events) :
    s.acceptHeartbeat.state =
      s.acceptHeartbeat.unlockedMode timeout (.heartbeatAccepted :: events) := by
  rcases s.acceptHeartbeat_cases with ⟨heq, _, htested, hbits⟩ | ⟨heq, hnot⟩
  · rw [heq]
    exact (if_pos ⟨hbits, rfl, htested, rfl⟩).symm
  · have hbefore : ¬(s.faultBitmap = 0 ∧ startedSinceFault events = true ∧
        s.selfTestPassed = true ∧ s.heartbeatSeen = true) :=
      fun hall => hnot ⟨hsafe, hall.2.2.1, hall.1⟩
    rw [unlockedMode, if_neg hbefore] at h
    rw [heq]
    exact h.trans (if_neg fun hall => hnot ⟨hsafe, hall.2.2.1, hall.1⟩).symm

/-- One event keeps the mode what the events make it, unless it locks it. -/
theorem Step.unlockedMode (htracks : s.Tracks timeout events)
    (h : s.state ≠ .safe → s.state = s.unlockedMode timeout events) (hstep : s.Step event s')
    (hsafe : s'.state ≠ .safe) : s'.state = s'.unlockedMode timeout (event :: events) := by
  cases hstep with
  | selfTestPassed =>
      have hbefore : s.state ≠ .safe := by
        intro hlocked
        have hignored : s.passSelfTest = s := if_pos hlocked
        exact hsafe ((congrArg Supervisor.state hignored).trans hlocked)
      exact unlockedMode_passSelfTest hbefore (h hbefore)
  | heartbeatAccepted =>
      have hbefore : s.state ≠ .safe := by
        intro hlocked
        have hkept : s.acceptHeartbeat.state = s.state := if_neg fun hall => hall.1 hlocked
        exact hsafe (hkept.trans hlocked)
      exact unlockedMode_acceptHeartbeat hbefore (h hbefore)
  | fault fault =>
      rcases s.latch_cases fault with ⟨heq, _⟩ | ⟨heq, _, _⟩
      · exact absurd (congrArg Supervisor.state heq) hsafe
      · have hfaults : faultsSinceRecover timeout (.fault fault :: events) ≠ [] := by
          rw [faultsSinceRecover_cons (by simp)]
          exact List.cons_ne_nil _ _
        rw [heq, Supervisor.unlockedMode, if_neg hfaults]
        exact (if_neg fun hall => Bool.false_ne_true hall.2.1).symm
  | recoverAccepted => exact ((if_neg fun hall => Bool.false_ne_true hall.2.1).trans rfl).symm
  | tick hexpired =>
      have hnone : faultAt timeout (selfTested timeout events) (heartbeatAge events) .tick = none :=
        if_neg (fun hlate => hexpired (htracks.expired_iff.mpr hlate))
      have hfaults : faultsSinceRecover timeout (.tick :: events) =
          faultsSinceRecover timeout events := by
        rw [faultsSinceRecover_cons (by simp), hnone]
        rfl
      rw [Supervisor.unlockedMode, hfaults]
      exact h hsafe
  | expire =>
      have hlocked : (s.advance.latch watchdogFault).state = .safe :=
        State.latch_of_severe s.state watchdogFault_severe
      exact absurd hlocked hsafe
  | other => exact h hsafe

end Supervisor

/-- The state after a run is the exact mode of its history, whatever fault words
were latched. -/
theorem run_state_eq_exactMode (memory : Controller) {config : Config} (hconfig : config.Valid)
    (calls : List Call) :
    (run memory config calls).state.state =
      exactMode config.watchdogTimeoutMs (modeEvents (run memory config calls).history) := by
  have hboth := (run_supervisor memory hconfig calls).invariant
    (fun events s => s.Tracks config.watchdogTimeoutMs events ∧
      (s.state ≠ .safe → s.state = s.unlockedMode config.watchdogTimeoutMs events))
    ⟨Supervisor.tracks_start _, fun _ => rfl⟩ (by
      intro events s event s' h hstep
      exact ⟨h.1.step hstep, hstep.unlockedMode h.1 h.2⟩)
  obtain ⟨htracks, hmode⟩ := hboth
  have hbits := run_faultBitmap memory hconfig calls
  set c := (run memory config calls).state
  set events := modeEvents (run memory config calls).history
  unfold exactMode
  rcases em (c.state = .safe) with hsafe | hsafe
  · rw [if_pos (htracks.safe.mp hsafe), hsafe]
  · have hsevere := mt htracks.safe.mpr hsafe
    have htested : (supervisor c).selfTestPassed = true ↔
        .selfTestPassed ∈ sinceRecover events := by
      rw [htracks.tested, selfTested_iff hsevere]
    have hunion : (supervisor c).faultBitmap =
        unionOfWords (faultsSinceRecover config.watchdogTimeoutMs events) := hbits
    have hready := and_congr (Eq.congr_left (z := (0 : U32)) hunion)
      (and_congr_right fun _ : startedSinceFault events = true => and_congr htested htracks.seen)
    rw [if_neg hsevere]
    exact (hmode hsafe).trans (if_congr hready rfl rfl)

section Replies

/-- A command number that is greater than all consumed ones, and not zero. -/
def Fresh (history : History) (sequence : U16) : Prop :=
  sequence ≠ 0 ∧ ∀ earlier ∈ consumedSequences history, earlier < sequence

instance Fresh.decidable (history : History) (sequence : U16) :
    Decidable (Fresh history sequence) :=
  inferInstanceAs (Decidable (_ ∧ _))

/-- The accepted frames that have not been popped, oldest first. -/
def waitingFrames (history : History) : List Frame :=
  (acceptedFrames (intakeEvents history)).drop (poppedFrames (intakeEvents history)).length

variable (config : Config) (history : History)

def modeAfter : State := exactMode config.watchdogTimeoutMs (modeEvents history)

/-- The bits of the faults that the last accepted recovery left to come. -/
def bitsAfter : U32 :=
  unionOfWords (faultsSinceRecover config.watchdogTimeoutMs (modeEvents history))

/-- The record that a telemetry call is given. -/
def recordAfter : TelemetryRecord :=
  let counters := countersOf (intakeEvents history)
  let records := (history.map Machine.Exchange.call).countP Call.writesRecord
  let fields : TelemetryRecord :=
    { sequence := BitVec.ofNat 16 (records + 1)
      state := (modeAfter config history).code
      reserved := 0
      faultBitmap := bitsAfter config history
      setpoint := lastSetpoint history
      register := (lastWritten 0 history).setWidth 16
      uartAccepted := counters.uartAccepted.setWidth 16
      spiAccepted := counters.spiAccepted.setWidth 16
      canAccepted := counters.canAccepted.setWidth 16
      ethernetAccepted := counters.ethernetAccepted.setWidth 16
      rejected := counters.rejected.setWidth 16
      crc := 0 }
  { fields with crc := crcOf fields.body }

/-- What a call replies after a history of calls and replies. -/
def expectedReply : Call → Reply
  | .markSelfTestPassed => .void
  | .heartbeat sequence => .status (if Fresh history sequence then .ok else .errSequence)
  | .setpoint sequence value =>
    if modeAfter config history ≠ .operational then .status .errState
    else if ¬Fresh history sequence then .status .errSequence
    else .status (if config.Encloses value then .ok else .errRange)
  | .latchFault _ _ => .void
  | .recover =>
    if modeAfter config history = .degraded ∧ bitsAfter config history ≠ 0 ∧
        bitsAfter config history &&& ~~~recoverableFaults = 0 then .status .ok
    else .status .errState
  | .tick => .void
  | .receive none => .status .errArgument
  | .receive (some frame) =>
    if ¬frame.Valid then .status .errRange
    else if config.enabledInterfaceMask &&& enabledBit frame.interfaceType = 0 then
      .status .errState
    else .status
      (if (waitingFrames history).length < frameQueueCapacity then .ok else .errFull)
  | .spiWrite address _ =>
    .status (if address.toNat < spiRegisterCount then .ok else .errRange)
  | .spiRead _ none => .value .errArgument none
  | .spiRead address (some byte) =>
    if address.toNat < spiRegisterCount then .value .ok (some (lastWritten address history))
    else .value .errRange (some byte)
  | .queuePop none => .popped .errArgument none
  | .queuePop (some destination) =>
    match waitingFrames history with
    | [] => .popped .errEmpty (some destination)
    | frame :: _ => .popped .ok (some frame)
  | .telemetry none => .telemetry 0 (.ok none)
  | .telemetry (some output) =>
    .telemetry telemetrySize (.ok (some (splice output 0 (recordAfter config history).bytes)))

/-- Some calls with the replies that the ones before them lead to, latest first. -/
def expectedHistory (calls : List Call) : History :=
  calls.foldl (fun history call => ⟨call, expectedReply config history call⟩ :: history) []

end Replies

/-- The controller holds what a history says, as far as replies show it. -/
structure Controller.Agrees (config : Config) (history : History) (c : Controller) : Prop where
  unchanged : c.config = config
  state : c.state = modeAfter config history
  faultBitmap : c.faultBitmap = bitsAfter config history
  fresh : ∀ sequence, c.lastCommandSequence < sequence ↔ Fresh history sequence
  holdsLast : c.HoldsLast history
  queue : c.queue.Holds (waitingFrames history)
  counters : c.counters = countersOf (intakeEvents history)
  telemetrySequence : c.telemetrySequence =
    BitVec.ofNat 16 ((history.map Machine.Exchange.call).countP Call.writesRecord)

section Runs

variable (memory : Controller) {config : Config} (calls : List Call)

/-- The last number is the last consumed one, or zero. -/
theorem run_lastCommandSequence (hconfig : config.Valid) :
    (run memory config calls).state.lastCommandSequence =
      (consumedSequences (run memory config calls).history).headD 0 := by
  refine run_keeps memory config
    (fun history c => c.lastCommandSequence = (consumedSequences history).headD 0) ?_ ?_ calls
  · have hvalid : configIsValid (some config) = .ok true := hconfig
    rw [controllerInit, if_pos hvalid]
    rfl
  · intro history c x c' h hanswer
    have hadvances := hanswer.advances
    cases hconsumed : consumedSequence x with
    | none =>
        rw [hconsumed] at hadvances
        have heq : consumedSequences (x :: history) = consumedSequences history := by
          simp [consumedSequences, hconsumed]
        rw [heq, ← h]
        exact hadvances
    | some sequence =>
        rw [hconsumed] at hadvances
        have heq : consumedSequences (x :: history) = sequence :: consumedSequences history := by
          simp [consumedSequences, hconsumed]
        rw [heq]
        exact hadvances.2

theorem run_fresh_iff (hconfig : config.Valid) (sequence : U16) :
    (run memory config calls).state.lastCommandSequence < sequence ↔
      Fresh (run memory config calls).history sequence := by
  have hincreasing := run_increasing memory config calls
  constructor
  · intro hless
    constructor
    · intro hzero
      rw [hzero] at hless
      exact Nat.not_lt_zero _ hless
    · intro earlier hmem
      exact Nat.lt_of_le_of_lt (hincreasing.le_last earlier hmem) hless
  · intro ⟨hpositive, hgreater⟩
    rw [run_lastCommandSequence memory calls hconfig]
    cases hconsumed : consumedSequences (run memory config calls).history with
    | nil => exact BitVec.lt_of_le_ne (Nat.zero_le _) hpositive.symm
    | cons last earlier => exact hgreater last (hconsumed ▸ List.mem_cons_self)

theorem run_agrees (hconfig : config.Valid) :
    (run memory config calls).state.Agrees config (run memory config calls).history where
  unchanged := run_config memory hconfig calls
  state := run_state_eq_exactMode memory hconfig calls
  faultBitmap := run_faultBitmap memory hconfig calls
  fresh := run_fresh_iff memory calls hconfig
  holdsLast := run_holdsLast memory hconfig calls
  queue := by
    obtain ⟨ring, hring, hqueue⟩ := (run_conserves memory hconfig calls).queue
    refine ⟨ring, hring, ?_⟩
    rw [waitingFrames, ← hqueue, List.drop_left]
  counters := (run_conserves memory hconfig calls).counters
  telemetrySequence := by
    rw [run_telemetrySequence memory hconfig calls, run, Machine.run_calls, List.countP_reverse]

end Runs

section Agreement

variable {config : Config} {history : History} {c c' : Controller}

theorem Controller.Agrees.record (h : c.Agrees config history) :
    { c with telemetrySequence := c.telemetrySequence + 1 }.record =
      recordAfter config history := by
  have hregister : c.spiRegisters.get ⟨0, spiRegisterCount_pos⟩ = lastWritten 0 history :=
    h.holdsLast.registers 0 spiRegisterCount_pos
  have hsequence : c.telemetrySequence + 1 = BitVec.ofNat 16
      ((history.map Machine.Exchange.call).countP Call.writesRecord + 1) := by
    rw [h.telemetrySequence]
    exact (BitVec.ofNat_add _ 1).symm
  simp only [Controller.record, recordAfter, hregister, hsequence, h.state, h.faultBitmap,
    h.holdsLast.setpoint, h.counters]

/-- What the controller replies with of its queue's reply. -/
def QueueReply.reply : QueueReply → Reply
  | .pushed status => .status status
  | .popped status frame => .popped status frame

theorem step_queuePop (c : Controller) (destination : Ptr Frame) :
    (step c (.queuePop destination)).1 = (queueStep c.queue (.pop destination)).1.reply := rfl

theorem Controller.Agrees.pop (h : c.Agrees config history) (destination : Frame) :
    (step c (.queuePop (some destination))).1 =
      expectedReply config history (.queuePop (some destination)) := by
  rw [step_queuePop, (queueStep_holds h.queue _).1]
  cases hwaiting : waitingFrames history <;> simp only [expectedReply, hwaiting] <;> rfl

/-- A call replies what the history leads to. -/
theorem Controller.Agrees.reply (h : c.Agrees config history) {x : Exchange}
    (hanswer : Answers c x c') : x.reply = expectedReply config history x.call := by
  have hstale {sequence : U16} (hstale : sequence = 0 ∨ sequence ≤ c.lastCommandSequence) :
      ¬Fresh history sequence := by
    rw [← h.fresh]
    rcases hstale with hzero | hle
    · rw [hzero]
      exact Nat.not_lt_zero _
    · exact BitVec.not_lt.mpr hle
  have hmode {state : State} (hstate : c.state = state) : modeAfter config history = state :=
    h.state.symm.trans hstate
  have hother {state : State} (hstate : c.state ≠ state) : modeAfter config history ≠ state := by
    rw [← h.state]
    exact hstate
  have hrecoverable : c.Recoverable ↔ modeAfter config history = .degraded ∧
      bitsAfter config history ≠ 0 ∧
      bitsAfter config history &&& ~~~recoverableFaults = 0 := by
    rw [← h.state, ← h.faultBitmap]
    rfl
  have hcount : c.queue.count.toNat = (waitingFrames history).length := h.queue.indices.2.2.1
  cases hanswer with
  | heartbeatStale hold => exact congrArg Reply.status (if_neg (hstale hold)).symm
  | heartbeatAccepted hfresh =>
      exact congrArg Reply.status (if_pos ((h.fresh _).mp hfresh)).symm
  | setpointRefused hstate => exact (if_pos (hother hstate)).symm
  | setpointStale hstate hold =>
      apply Eq.symm
      apply (if_neg (not_not.mpr (hmode hstate))).trans
      exact if_pos (hstale hold)
  | setpointOutOfRange hstate hfresh hvalue =>
      apply Eq.symm
      apply (if_neg (not_not.mpr (hmode hstate))).trans
      apply (if_neg (not_not.mpr ((h.fresh _).mp hfresh))).trans
      apply congrArg Reply.status
      apply if_neg
      intro ⟨hminimum, hmaximum⟩
      rw [h.unchanged] at hvalue
      exact hvalue.elim (Int16.not_lt.mpr hminimum) (Int16.not_lt.mpr hmaximum)
  | setpointAccepted hstate hfresh hminimum hmaximum =>
      rw [h.unchanged] at hminimum hmaximum
      apply Eq.symm
      apply (if_neg (not_not.mpr (hmode hstate))).trans
      apply (if_neg (not_not.mpr ((h.fresh _).mp hfresh))).trans
      exact congrArg Reply.status (if_pos ⟨hminimum, hmaximum⟩)
  | recoverRefused hrefused => exact (if_neg (mt hrecoverable.mpr hrefused)).symm
  | recovered hready => exact (if_pos (hrecoverable.mp hready)).symm
  | frameInvalid hinvalid => exact (if_pos hinvalid).symm
  | interfaceDisabled hvalid hdisabled =>
      rw [h.unchanged] at hdisabled
      apply Eq.symm
      apply (if_neg (not_not.mpr hvalid)).trans
      exact if_pos hdisabled
  | queueFull hadmits hfull =>
      rw [h.unchanged] at hadmits
      obtain ⟨hvalid, henabled⟩ := Config.admits_iff.mp hadmits
      apply Eq.symm
      apply (if_neg (not_not.mpr hvalid)).trans
      apply (if_neg henabled).trans
      exact congrArg Reply.status (if_neg (Nat.not_lt.mpr (hcount ▸ hfull)))
  | frameAccepted hadmits hspace =>
      rw [h.unchanged] at hadmits
      obtain ⟨hvalid, henabled⟩ := Config.admits_iff.mp hadmits
      apply Eq.symm
      apply (if_neg (not_not.mpr hvalid)).trans
      apply (if_neg henabled).trans
      exact congrArg Reply.status (if_pos (hcount ▸ hspace))
  | writeOutOfRange haddress =>
      exact congrArg Reply.status (if_neg (Nat.not_lt.mpr haddress)).symm
  | registerWritten haddress => exact congrArg Reply.status (if_pos haddress).symm
  | readOutOfRange haddress => exact (if_neg (Nat.not_lt.mpr haddress)).symm
  | registerRead haddress =>
      apply Eq.symm
      apply (if_pos haddress).trans
      rw [h.holdsLast.registers _ haddress]
  | queueEmpty hempty =>
      rw [← h.pop]
      exact congrArg Prod.fst (Answers.queueEmpty hempty).step_eq.symm
  | framePopped hne hframe =>
      rw [← h.pop]
      exact congrArg Prod.fst (Answers.framePopped hne hframe).step_eq.symm
  | recordWritten =>
      rw [writeTelemetry_eq, h.record]
      rfl
  | _ => rfl

end Agreement

/-- The controller replies what its specification over histories says, to every
call of every run, whatever was in its memory before the initialisation. -/
theorem run_history_expected (memory : Controller) (config : Config) (hconfig : config.Valid)
    (calls : List Call) :
    (run memory config calls).history = expectedHistory config calls := by
  induction calls using List.reverseRecOn with
  | nil => rfl
  | append_singleton before call ih =>
      have hagrees := run_agrees memory before hconfig
      have hreply := hagrees.reply (step_answers (run memory config before).state call)
      have hnext : (run memory config (before ++ [call])).history =
          ⟨call, (step (run memory config before).state call).1⟩ ::
            (run memory config before).history :=
        congrArg Machine.Run.history
          (Machine.run_snoc step (controllerInit memory (some config)) before call)
      have hexpected : expectedHistory config (before ++ [call]) =
          ⟨call, expectedReply config (expectedHistory config before) call⟩ ::
            expectedHistory config before := List.foldl_append
      rw [hnext, hexpected, ← ih]
      exact congrArg (fun reply => Machine.Exchange.mk call reply :: _) hreply

/-- A fault without a bit, and the start-up after it. -/
theorem run_history_expected_bitless :
    (run zeroController defaultConfig
      [.latchFault 0 false, .recover, .heartbeat 1, .markSelfTestPassed, .setpoint 2 7]).history =
      expectedHistory defaultConfig
        [.latchFault 0 false, .recover, .heartbeat 1, .markSelfTestPassed, .setpoint 2 7] :=
  run_history_expected zeroController defaultConfig defaultConfig_valid _

end Esqh
