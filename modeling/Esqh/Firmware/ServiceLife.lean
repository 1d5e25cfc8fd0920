import Esqh.Firmware.Commands
import Esqh.Firmware.Watchdog
import Esqh.Library.RunCost
import Mathlib.Order.Bounds.Basic

/-!
How long the controller can be in service between two initialisations. Each
accepted heartbeat buys a watchdog period, and there are only so many sequence
numbers to accept one with.
-/

namespace Esqh

open Machine

namespace Supervisor

/-- The age that the next tick gives the last heartbeat, as the clocks tell it. -/
def nextAge (s : Supervisor) : Nat := (s.elapsedMs + 1 - s.lastHeartbeatMs).toNat

/-- The ticks in operation that are left until the watchdog trips or another
heartbeat is accepted. Before the self-test the watchdog waits. -/
def timeLeft (s : Supervisor) : Nat :=
  if s.state = .safe ∨ s.heartbeatSeen = false then 0
  else if s.selfTestPassed = true then s.timeout.toNat + 1 - s.nextAge
  else s.timeout.toNat + 1

/-- Whether an event that leads to a mode is a tick in operation. -/
def served (event : ModeEvent) (s : Supervisor) : Nat :=
  if event = .tick ∧ s.state = .operational then 1 else 0

variable {s s' : Supervisor} {event : ModeEvent}

section TimeLeft

theorem timeLeft_le (s : Supervisor) : s.timeLeft ≤ s.timeout.toNat + 1 := by
  rw [timeLeft]
  split
  next => exact Nat.zero_le _
  next =>
    split
    next => exact Nat.sub_le _ _
    next => exact Nat.le_refl _

theorem timeLeft_of_safe (h : s.state = .safe) : s.timeLeft = 0 := if_pos (.inl h)

theorem timeLeft_of_unseen (h : s.heartbeatSeen = false) : s.timeLeft = 0 := if_pos (.inr h)

theorem timeLeft_of_untested (hsafe : s.state ≠ .safe) (hseen : s.heartbeatSeen = true)
    (htested : s.selfTestPassed = false) : s.timeLeft = s.timeout.toNat + 1 := by
  simp [timeLeft, hsafe, hseen, htested]

theorem timeLeft_of_supervised (hsafe : s.state ≠ .safe) (hseen : s.heartbeatSeen = true)
    (htested : s.selfTestPassed = true) :
    s.timeLeft = s.timeout.toNat + 1 - s.nextAge := by
  simp [timeLeft, hsafe, hseen, htested]

theorem timeLeft_latch_le (s : Supervisor) (fault : Fault) :
    (s.latch fault).timeLeft ≤ s.timeLeft := by
  rcases s.latch_cases fault with ⟨heq, _⟩ | ⟨heq, _, hsafe⟩
  · rw [heq, timeLeft_of_safe rfl]
    exact Nat.zero_le _
  · rw [heq, timeLeft, timeLeft]
    simp [hsafe, nextAge]

/-- The self-test starts the supervision, which leaves no more time. -/
theorem timeLeft_passSelfTest_le (s : Supervisor) : s.passSelfTest.timeLeft ≤ s.timeLeft := by
  rw [passSelfTest]
  split
  next => exact Nat.le_refl _
  next hsafe =>
    cases hseen : s.heartbeatSeen with
    | false =>
        rw [timeLeft_of_unseen rfl]
        exact Nat.zero_le _
    | true =>
        cases htested : s.selfTestPassed with
        | false =>
            rw [timeLeft_of_untested hsafe hseen htested]
            exact timeLeft_le _
        | true =>
            have hpassed : (if True ∧ s.faultBitmap = 0 then State.operational else s.state) ≠
                .safe := by
              split
              next => simp
              next => exact hsafe
            rw [timeLeft_of_supervised hsafe hseen htested]
            simp only [true_and] at hpassed ⊢
            rw [timeLeft_of_supervised hpassed rfl rfl]
            exact Nat.le_refl _

end TimeLeft

section Ticks

theorem not_expired_iff (htested : s.selfTestPassed = true) :
    ¬s.advance.Expired ↔ s.nextAge ≤ s.timeout.toNat := by
  have hlate : s.advance.Expired ↔ s.timeout.setWidth 32 < s.elapsedMs + 1 - s.lastHeartbeatMs :=
    and_iff_right htested
  rw [hlate, BitVec.lt_def, BitVec.toNat_setWidth_of_le (by decide), Nat.not_lt]
  rfl

/-- Within the timeout the age does not wrap. -/
theorem nextAge_advance (h : s.nextAge ≤ s.timeout.toNat) : s.advance.nextAge = s.nextAge + 1 := by
  have htimeout := s.timeout.isLt
  have hnext : s.elapsedMs + 1 + 1 - s.lastHeartbeatMs =
      s.elapsedMs + 1 - s.lastHeartbeatMs + 1 := by
    rw [BitVec.sub_eq_add_neg, BitVec.sub_eq_add_neg]
    ac_rfl
  have hone : (1 : U32).toNat = 1 := rfl
  rw [nextAge] at h
  have hrange : (s.elapsedMs + 1 - s.lastHeartbeatMs).toNat + (1 : U32).toNat < 2 ^ 32 := by omega
  rw [nextAge, nextAge, ← hone, ← BitVec.toNat_add_of_lt hrange, ← hnext]
  rfl

theorem served_of_ne (h : event ≠ .tick) (s : Supervisor) : served event s = 0 :=
  if_neg fun hboth => h hboth.1

theorem served_of_not_operational (h : s.state ≠ .operational) (event : ModeEvent) :
    served event s = 0 := if_neg fun hboth => h hboth.2

theorem served_le (event : ModeEvent) (s : Supervisor) : served event s ≤ 1 := by
  rw [served]
  split
  next => exact Nat.le_refl _
  next => exact Nat.zero_le _

/-- A tick in operation that does not trip uses up one tick of the time left. -/
theorem served_advance_le (hsound : s.Sound) (h : ¬s.advance.Expired) :
    served .tick s.advance + s.advance.timeLeft ≤ s.timeLeft := by
  by_cases hstate : s.state = .operational
  · obtain ⟨htested, hseen, _⟩ := hsound.operational hstate
    have hsafe : s.state ≠ .safe := by simp [hstate]
    have hage := (not_expired_iff htested).mp h
    have hserved := served_le .tick s.advance
    have hbefore := timeLeft_of_supervised hsafe hseen htested
    have hafter : s.advance.timeLeft = s.timeout.toNat + 1 - s.advance.nextAge :=
      timeLeft_of_supervised hsafe hseen htested
    rw [nextAge_advance hage] at hafter
    omega
  · have hserved : served .tick s.advance = 0 := served_of_not_operational hstate .tick
    have hafter : s.advance.timeLeft =
        if s.state = .safe ∨ s.heartbeatSeen = false then 0
        else if s.selfTestPassed = true then s.timeout.toNat + 1 - s.advance.nextAge
        else s.timeout.toNat + 1 := rfl
    rw [hserved, Nat.zero_add, hafter, timeLeft]
    split
    next => exact Nat.le_refl _
    next =>
      split
      next htested =>
        rw [nextAge_advance ((not_expired_iff htested).mp h)]
        omega
      next => exact Nat.le_refl _

end Ticks

/-- Only an accepted heartbeat gives more time. -/
theorem Step.served_le (hsound : s.Sound) (hstep : s.Step event s')
    (hevent : event ≠ .heartbeatAccepted) : served event s' + s'.timeLeft ≤ s.timeLeft := by
  cases hstep with
  | selfTestPassed =>
      rw [served_of_ne (by simp), Nat.zero_add]
      exact timeLeft_passSelfTest_le s
  | heartbeatAccepted => exact absurd rfl hevent
  | fault fault =>
      rw [served_of_ne (by simp), Nat.zero_add]
      exact timeLeft_latch_le s fault
  | recoverAccepted =>
      rw [served_of_ne (by simp), Nat.zero_add]
      have hleft : s.recovered.timeLeft = 0 := if_pos (.inr rfl)
      rw [hleft]
      exact Nat.zero_le _
  | tick h => exact served_advance_le hsound h
  | expire =>
      have hsafe : (s.advance.latch watchdogFault).state = .safe :=
        State.latch_of_severe s.state watchdogFault_severe
      have hout : served .tick (s.advance.latch watchdogFault) = 0 := by
        simp [served, hsafe]
      rw [hout, timeLeft_of_safe hsafe]
      exact Nat.zero_le _
  | other =>
      rw [served_of_ne (by simp), Nat.zero_add]

theorem Step.timeout_eq (hstep : s.Step event s') : s'.timeout = s.timeout := by
  cases hstep with
  | selfTestPassed =>
      rw [passSelfTest]
      split <;> rfl
  | _ => rfl

/-- The mode logic after some ticks that do not trip. -/
def advanced (s : Supervisor) (n : Nat) : Supervisor :=
  { s with elapsedMs := s.elapsedMs + BitVec.ofNat 32 n }

theorem advanced_zero (s : Supervisor) : s.advanced 0 = s := by
  rw [advanced, BitVec.add_zero]

theorem advanced_advance (s : Supervisor) (n : Nat) :
    s.advance.advanced n = s.advanced (n + 1) := by
  simp only [advanced, advance, BitVec.add_assoc, Nat.add_comm n, BitVec.ofNat_add]
  rfl

end Supervisor

section Bound

variable {c : Controller}

/-- A tick is served if the controller is operational after it. -/
def servedTick (c : Controller) : Call → Nat
  | .tick => if (tick c).state = .operational then 1 else 0
  | _ => 0

/-- The ticks served between an initialisation and the next. -/
def serviceTicks (memory : Controller) (config : Config) (calls : List Call) : Nat :=
  totalCost step servedTick (controllerInit memory (some config)) calls

/-- The ticks that the sequence numbers left and the last heartbeat still allow. -/
def serviceLeft (c : Controller) : Nat :=
  (0xffff - c.lastCommandSequence.toNat) * (c.config.watchdogTimeoutMs.toNat + 1) +
    (supervisor c).timeLeft

theorem eq_tick_of_modeEvent {x : Exchange} (h : modeEvent x = .tick) : x.call = .tick := by
  unfold modeEvent at h
  split at h
  case h_8 hcall => exact hcall
  all_goals cases h

theorem servedTick_eq (c : Controller) (call : Call) :
    servedTick c call =
      Supervisor.served (modeEvent ⟨call, (step c call).1⟩) (supervisor (step c call).2) := by
  cases hevent : modeEvent ⟨call, (step c call).1⟩ with
  | tick =>
      obtain rfl : call = .tick := eq_tick_of_modeEvent hevent
      exact (if_congr (and_iff_right rfl) rfl rfl).symm
  | _ =>
      rw [Supervisor.served_of_ne (by simp)]
      cases call <;> first | rfl | cases hevent

theorem consumedSequence_of_modeEvent {x : Exchange} (h : modeEvent x = .heartbeatAccepted) :
    ∃ sequence, consumedSequence x = some sequence := by
  unfold modeEvent at h
  split at h
  case h_2 sequence hcall hreply => exact ⟨sequence, by simp [consumedSequence, hcall, hreply]⟩
  all_goals cases h

/-- Every call is paid for: the ticks by the last heartbeat, a heartbeat by its
sequence number. -/
theorem servedTick_le (hsound : (supervisor c).Sound) (call : Call) :
    servedTick c call + serviceLeft (step c call).2 ≤ serviceLeft c := by
  have hstep := step_supervisor c call
  have htimeout : (step c call).2.config.watchdogTimeoutMs = c.config.watchdogTimeoutMs :=
    hstep.timeout_eq
  have hadvances := (step_answers c call).advances
  rw [servedTick_eq, serviceLeft, serviceLeft, htimeout]
  by_cases hevent : modeEvent ⟨call, (step c call).1⟩ = .heartbeatAccepted
  · obtain ⟨sequence, hconsumed⟩ := consumedSequence_of_modeEvent hevent
    rw [hconsumed] at hadvances
    obtain ⟨hfresh, hlast⟩ := hadvances
    have hless : c.lastCommandSequence.toNat < (step c call).2.lastCommandSequence.toNat := by
      rw [hlast]
      exact hfresh
    have hmax := (step c call).2.lastCommandSequence.isLt
    have hleft := Supervisor.timeLeft_le (supervisor (step c call).2)
    have hsame : (supervisor (step c call).2).timeout.toNat = c.config.watchdogTimeoutMs.toNat :=
      congrArg BitVec.toNat htimeout
    have hnumbers : 0xffff - c.lastCommandSequence.toNat =
        0xffff - (step c call).2.lastCommandSequence.toNat +
          ((step c call).2.lastCommandSequence.toNat - c.lastCommandSequence.toNat - 1 + 1) := by
      omega
    rw [hevent, Supervisor.served_of_ne (by simp), hnumbers, Nat.add_mul, Nat.succ_mul]
    omega
  · have hpaid := hstep.served_le hsound hevent
    have hle : c.lastCommandSequence.toNat ≤ (step c call).2.lastCommandSequence.toNat := by
      cases hconsumed : consumedSequence ⟨call, (step c call).1⟩ with
      | none =>
          rw [hconsumed] at hadvances
          exact Nat.le_of_eq (congrArg BitVec.toNat hadvances.symm)
      | some sequence =>
          rw [hconsumed] at hadvances
          rw [hadvances.2]
          exact Nat.le_of_lt hadvances.1
    have hnumbers := Nat.mul_le_mul_right (c.config.watchdogTimeoutMs.toNat + 1)
      (Nat.sub_le_sub_left hle 0xffff)
    omega

theorem serviceLeft_controllerInit (memory : Controller) {config : Config}
    (hconfig : config.Valid) :
    serviceLeft (controllerInit memory (some config)) =
      0xffff * (config.watchdogTimeoutMs.toNat + 1) := by
  have hvalid : configIsValid (some config) = .ok true := hconfig
  have hleft : (supervisor (controllerInit memory (some config))).timeLeft = 0 := by
    rw [supervisor_controllerInit memory hconfig]
    exact Supervisor.timeLeft_of_unseen rfl
  have hnumber : (0 : U16).toNat = 0 := rfl
  rw [serviceLeft, hleft]
  simp only [controllerInit, if_pos hvalid, hnumber, Nat.sub_zero, Nat.add_zero]

theorem serviceTicks_le (memory : Controller) {config : Config} (hconfig : config.Valid)
    (calls : List Call) :
    serviceTicks memory config calls ≤ 0xffff * (config.watchdogTimeoutMs.toNat + 1) := by
  rw [← serviceLeft_controllerInit memory hconfig]
  apply totalCost_le step servedTick (fun c => (supervisor c).Sound) serviceLeft
  · exact fun c call hsound => hsound.step (step_supervisor c call)
  · exact fun c call hsound => servedTick_le hsound call
  · rw [supervisor_controllerInit memory hconfig]
    exact Supervisor.sound_start _

end Bound

section Rounds

variable {c : Controller} {timeout : U16} {seen : Bool} {elapsed last : U32}

/-- Ticks that do not trip move the clock, and are served or not as one is. -/
theorem ticks_not_expired (n : Nat) (c : Controller)
    (h : ∀ k < n, ¬((supervisor c).advanced (k + 1)).Expired) :
    supervisor (after step c (List.replicate n .tick)) = (supervisor c).advanced n ∧
      (after step c (List.replicate n .tick)).lastCommandSequence = c.lastCommandSequence ∧
      totalCost step servedTick c (List.replicate n .tick) =
        if c.state = .operational then n else 0 := by
  induction n generalizing c with
  | zero => exact ⟨(Supervisor.advanced_zero _).symm, rfl, (ite_self 0).symm⟩
  | succ n ih =>
      have hfirst := h 0 (Nat.succ_pos n)
      rw [← Supervisor.advanced_advance, Supervisor.advanced_zero] at hfirst
      have htick : (step c .tick).2 = advanceClocks c := tick_of_not_expired c hfirst
      have hrest : ∀ k < n, ¬((supervisor (advanceClocks c)).advanced (k + 1)).Expired := by
        intro k hk
        have hlater := h (k + 1) (Nat.succ_lt_succ hk)
        rwa [← Supervisor.advanced_advance] at hlater
      obtain ⟨hmode, hsequence, hcost⟩ := ih (advanceClocks c) hrest
      have hserved : servedTick c .tick = if c.state = .operational then 1 else 0 := by
        rw [servedTick, tick_of_not_expired c hfirst]
        rfl
      rw [List.replicate_succ, after_cons, totalCost_cons, htick, ← Supervisor.advanced_advance,
        hserved]
      refine ⟨hmode, hsequence, (congrArg _ hcost).trans ?_⟩
      change (_ + if c.state = .operational then n else 0) = _
      split
      next => exact Nat.add_comm 1 n
      next => rfl

/-- The controller waits for its start-up and has accepted `n` as its last
number. -/
structure Waiting (timeout : U16) (n : Nat) (c : Controller) : Prop where
  mode : ∃ seen elapsed last, supervisor c = ⟨timeout, .init, 0, false, seen, elapsed, last⟩
  sequence : c.lastCommandSequence.toNat = n

theorem waiting_controllerInit (memory : Controller) {config : Config} (hconfig : config.Valid) :
    Waiting config.watchdogTimeoutMs 0 (controllerInit memory (some config)) where
  mode := ⟨_, _, _, supervisor_controllerInit memory hconfig⟩
  sequence := by
    have hvalid : configIsValid (some config) = .ok true := hconfig
    simp only [controllerInit, if_pos hvalid]
    rfl

theorem heartbeat_waiting
    (hmode : supervisor c = ⟨timeout, .init, 0, false, seen, elapsed, last⟩) {sequence : U16}
    (hfresh : c.lastCommandSequence < sequence) :
    supervisor (heartbeat c sequence).2 = ⟨timeout, .init, 0, false, true, elapsed, elapsed⟩ ∧
      (heartbeat c sequence).2.lastCommandSequence = sequence := by
  rcases heartbeat_cases c sequence with ⟨_, hstale⟩ | ⟨heq, _⟩
  · rcases hstale with rfl | hstale
    · exact absurd hfresh (Nat.not_lt_zero _)
    · exact absurd hstale (BitVec.not_le.mpr hfresh)
  · rw [heq]
    refine ⟨?_, rfl⟩
    have haccepted : (supervisor c).acceptHeartbeat =
        ⟨timeout, .init, 0, false, true, elapsed, elapsed⟩ := by
      rw [hmode]
      rfl
    exact haccepted

theorem supervisor_markSelfTestPassed (c : Controller) :
    supervisor (markSelfTestPassed c) = (supervisor c).passSelfTest := by
  by_cases hsafe : c.state = .safe
  · rw [markSelfTestPassed_of_safe c hsafe]
    exact (if_pos hsafe).symm
  · rw [markSelfTestPassed_of_not_safe c hsafe]
    exact (if_neg hsafe).symm

theorem markSelfTestPassed_waiting
    (hmode : supervisor c = ⟨timeout, .init, 0, false, true, elapsed, last⟩) :
    supervisor (markSelfTestPassed c) = ⟨timeout, .operational, 0, true, true, elapsed, last⟩ := by
  rw [supervisor_markSelfTestPassed, hmode]
  rfl

/-- A recoverable fault and the recovery from it bring a controller without
faults back to its start-up. -/
theorem recover_faultless {state : State} {tested : Bool} (hsafe : state ≠ .safe)
    (hmode : supervisor c = ⟨timeout, state, 0, tested, seen, elapsed, last⟩) :
    let recovered := (recover (latchFault c faultInterface false)).2
    supervisor recovered = ⟨timeout, .init, 0, false, false, elapsed, last⟩ ∧
      recovered.lastCommandSequence = c.lastCommandSequence := by
  intro recovered
  have hlatched : supervisor (latchFault c faultInterface false) =
      ⟨timeout, .degraded, faultInterface, tested, seen, elapsed, last⟩ := by
    have hlatch : (supervisor c).latch ⟨faultInterface, false⟩ =
        ⟨timeout, .degraded, faultInterface, tested, seen, elapsed, last⟩ := by
      rw [hmode, Supervisor.latch, State.latch_of_not_severe (by decide) hsafe]
      exact congrArg (Supervisor.mk timeout .degraded · tested seen elapsed last) BitVec.zero_or
    rw [← hlatch, latchFault_eq]
    rfl
  have hrecoverable : (supervisor (latchFault c faultInterface false)).Recoverable := by
    rw [hlatched]
    exact ⟨rfl, (by decide : faultInterface ≠ 0),
      (by decide : faultInterface &&& ~~~recoverableFaults = 0)⟩
  rcases recover_cases (latchFault c faultInterface false) with ⟨_, hrefused⟩ | ⟨heq, _⟩
  · exact absurd hrecoverable hrefused
  · have hrecovered : recovered = _ := congrArg Prod.snd heq
    rw [hrecovered]
    constructor
    · have hfields : (supervisor (latchFault c faultInterface false)).recovered =
          ⟨timeout, .init, 0, false, false, elapsed, last⟩ := by
        rw [hlatched]
        rfl
      exact hfields
    · rw [latchFault_eq]

/-- The start-up with a number: the self-test may wait until the clocks have all
but wrapped. -/
theorem exists_start {n : Nat} (hwaiting : Waiting timeout n c) (hn : n < 0xffff) :
    ∃ calls, (∃ elapsed, supervisor (after step c calls) =
        ⟨timeout, .operational, 0, true, true, elapsed, elapsed + 1⟩) ∧
      (after step c calls).lastCommandSequence.toNat = n + 1 ∧
      totalCost step servedTick c calls = 0 := by
  obtain ⟨⟨seen, elapsed, last, hmode⟩, hsequence⟩ := hwaiting
  have hnumber : (BitVec.ofNat 16 (n + 1)).toNat = n + 1 := by
    rw [BitVec.toNat_ofNat, Nat.mod_eq_of_lt (by omega)]
  have hfresh : c.lastCommandSequence < BitVec.ofNat 16 (n + 1) := by
    rw [BitVec.lt_def]
    omega
  obtain ⟨wait, hwait⟩ : ∃ wait, wait + 1 = 2 ^ 32 := ⟨2 ^ 32 - 1, rfl⟩
  obtain ⟨hbeaten, haccepted⟩ := heartbeat_waiting hmode hfresh
  obtain ⟨hwaited, hkept, hfree⟩ := ticks_not_expired wait _ fun k _ hexpired => by
    rw [hbeaten] at hexpired
    exact Bool.false_ne_true hexpired.1
  have hout : (heartbeat c (BitVec.ofNat 16 (n + 1))).2.state ≠ .operational := by
    have hstate : (heartbeat c (BitVec.ofNat 16 (n + 1))).2.state = .init :=
      congrArg Supervisor.state hbeaten
    simp [hstate]
  rw [if_neg hout] at hfree
  -- the wait brings the clock to one tick before the reading of the heartbeat
  have hwrap : elapsed + BitVec.ofNat 32 wait + 1 = elapsed := by
    have hzero : BitVec.ofNat 32 wait + 1 = 0 :=
      calc
        BitVec.ofNat 32 wait + 1 = BitVec.ofNat 32 (wait + 1) := (BitVec.ofNat_add wait 1).symm
        _ = BitVec.ofNat 32 (2 ^ 32) := by rw [hwait]
        _ = 0 := rfl
    rw [BitVec.add_assoc, hzero]
    exact BitVec.add_zero elapsed
  refine ⟨.heartbeat (BitVec.ofNat 16 (n + 1)) ::
    (List.replicate wait .tick ++ [.markSelfTestPassed]), ?_, ?_, ?_⟩
  · refine ⟨elapsed + BitVec.ofNat 32 wait, ?_⟩
    rw [after_cons, after_append, hwrap]
    exact markSelfTestPassed_waiting (hwaited.trans (by rw [hbeaten]; rfl))
  · rw [after_cons, after_append]
    have hmarked : (markSelfTestPassed _).lastCommandSequence = _ :=
      (step_answers (after step (heartbeat c (BitVec.ofNat 16 (n + 1))).2
        (List.replicate wait .tick)) .markSelfTestPassed).advances
    rw [hkept, haccepted] at hmarked
    exact (congrArg BitVec.toNat hmarked).trans hnumber
  · have hwaiting : totalCost step servedTick (step c (.heartbeat (BitVec.ofNat 16 (n + 1)))).2
        (List.replicate wait .tick) = 0 := hfree
    rw [totalCost_cons, totalCost_append, hwaiting]
    rfl

/-- From then on each tick is served until the watchdog has nothing left. -/
theorem serve
    (hmode : supervisor c = ⟨timeout, .operational, 0, true, true, elapsed, elapsed + 1⟩) :
    let calls := List.replicate (timeout.toNat + 1) Call.tick
    (∃ late, supervisor (after step c calls) =
        ⟨timeout, .operational, 0, true, true, late, elapsed + 1⟩) ∧
      (after step c calls).lastCommandSequence = c.lastCommandSequence ∧
      totalCost step servedTick c calls = timeout.toNat + 1 := by
  intro calls
  have htimeout := timeout.isLt
  obtain ⟨hserved, hkept, hcost⟩ := ticks_not_expired (timeout.toNat + 1) c fun k hk hexpired => by
    have hage : elapsed + BitVec.ofNat 32 (k + 1) - (elapsed + 1) = BitVec.ofNat 32 k := by
      have hsum : elapsed + BitVec.ofNat 32 (k + 1) = BitVec.ofNat 32 k + (elapsed + 1) := by
        rw [BitVec.ofNat_add, ← BitVec.add_assoc, BitVec.add_comm elapsed, BitVec.add_assoc]
        rfl
      rw [hsum, BitVec.add_sub_cancel]
    rw [hmode] at hexpired
    have hlate := hexpired.2
    rw [Supervisor.advanced] at hlate
    simp only [hage] at hlate
    rw [BitVec.lt_def, BitVec.toNat_setWidth_of_le (by decide), BitVec.toNat_ofNat,
      Nat.mod_eq_of_lt (by omega)] at hlate
    omega
  have hstate : c.state = .operational := congrArg Supervisor.state hmode
  rw [if_pos hstate] at hcost
  refine ⟨⟨elapsed + BitVec.ofNat 32 (timeout.toNat + 1), hserved.trans ?_⟩, hkept, hcost⟩
  rw [hmode]
  rfl

/-- One number buys a whole period of service, and one tick more than that. -/
theorem exists_round {n : Nat} (hwaiting : Waiting timeout n c) (hn : n < 0xffff) :
    ∃ calls, Waiting timeout (n + 1) (after step c calls) ∧
      totalCost step servedTick c calls = timeout.toNat + 1 := by
  obtain ⟨start, ⟨elapsed, hstarted⟩, hsequence, hfree⟩ := exists_start hwaiting hn
  obtain ⟨⟨late, hserved⟩, hkept, hcost⟩ := serve hstarted
  obtain ⟨hmode, hrecovered⟩ := recover_faultless (by simp) hserved
  refine ⟨start ++ (List.replicate (timeout.toNat + 1) .tick ++
    [.latchFault faultInterface false, .recover]), ?_, ?_⟩
  · rw [after_append, after_append]
    refine ⟨⟨_, _, _, hmode⟩, ?_⟩
    rw [← hsequence, ← hkept]
    exact congrArg BitVec.toNat hrecovered
  · rw [totalCost_append, totalCost_append, hfree, hcost, Nat.zero_add]
    rfl

end Rounds

/-- The controller can serve a whole watchdog period and one tick for each of
its sequence numbers, but not more: then it needs another initialisation,
whatever calls are made. -/
theorem run_service_greatest (memory : Controller) (config : Config) (hconfig : config.Valid) :
    IsGreatest (Set.range (serviceTicks memory config))
      (0xffff * (config.watchdogTimeoutMs.toNat + 1)) := by
  constructor
  · exact exists_totalCost_rounds step servedTick (Waiting config.watchdogTimeoutMs) 0xffff
      (config.watchdogTimeoutMs.toNat + 1) (fun n hn c hwaiting => exists_round hwaiting hn)
      (waiting_controllerInit memory hconfig)
  · intro _ ⟨calls, hticks⟩
    rw [← hticks]
    exact serviceTicks_le memory hconfig calls

/-- With the default timeout of 100 that is less than two hours of milliseconds. -/
theorem run_service_greatest_default :
    IsGreatest (Set.range (serviceTicks zeroController defaultConfig)) (0xffff * 101) :=
  run_service_greatest zeroController defaultConfig defaultConfig_valid

end Esqh
