import Esqh.Firmware.Transitions
import Mathlib.Algebra.Group.Nat.Defs

/-!
The mode as a function of the events alone. `mode` reads nothing of the
controller: it asks which faults occurred, whether one was severe, and what
happened since the last accepted recovery. Events stand latest first.
-/

namespace Esqh

/-- The ticks since the last accepted heartbeat, or since the start. -/
def heartbeatAge : List ModeEvent → Nat
  | [] => 0
  | .heartbeatAccepted :: _ => 0
  | .tick :: earlier => heartbeatAge earlier + 1
  | _ :: earlier => heartbeatAge earlier

/-- The fault that an event is, if any, given whether the self-test has passed
and how many ticks ago the last heartbeat was accepted. The controller's clocks
have 32 bits, so it sees the age modulo `2 ^ 32`. -/
def faultAt (timeout : U16) (tested : Bool) (age : Nat) : ModeEvent → Option Fault
  | .fault fault => some fault
  | .tick =>
    if tested = true ∧ timeout.toNat < (age + 1) % 2 ^ 32 then some watchdogFault else none
  | _ => none

mutual

/-- Whether the self-test has passed since the last accepted recovery. After a
severe fault it no longer counts. -/
def selfTested (timeout : U16) : List ModeEvent → Bool
  | [] => false
  | .selfTestPassed :: earlier =>
    selfTested timeout earlier || !(faults timeout earlier).any (fun fault => fault.Severe)
  | .recoverAccepted :: _ => false
  | _ :: earlier => selfTested timeout earlier

/-- Every fault that occurred. -/
def faults (timeout : U16) : List ModeEvent → List Fault
  | [] => []
  | event :: earlier =>
    (faultAt timeout (selfTested timeout earlier) (heartbeatAge earlier) event).toList ++
      faults timeout earlier

end

/-- The events since the last accepted recovery. -/
def sinceRecover (events : List ModeEvent) : List ModeEvent :=
  events.takeWhile (fun event => event ≠ .recoverAccepted)

/-- The faults since the last accepted recovery. -/
def faultsSinceRecover (timeout : U16) : List ModeEvent → List Fault
  | [] => []
  | .recoverAccepted :: _ => []
  | event :: earlier =>
    (faultAt timeout (selfTested timeout earlier) (heartbeatAge earlier) event).toList ++
      faultsSinceRecover timeout earlier

/-- The mode after some events. -/
def mode (timeout : U16) (events : List ModeEvent) : State :=
  if ∃ fault ∈ faults timeout events, fault.Severe then .safe
  else if faultsSinceRecover timeout events ≠ [] then .degraded
  else if .selfTestPassed ∈ sinceRecover events ∧ .heartbeatAccepted ∈ sinceRecover events then
    .operational
  else .init

section Events

variable {timeout : U16} {events : List ModeEvent}

@[simp] theorem sinceRecover_nil : sinceRecover [] = [] := rfl

@[simp] theorem sinceRecover_recoverAccepted :
    sinceRecover (.recoverAccepted :: events) = [] := rfl

theorem sinceRecover_cons {event : ModeEvent} (h : event ≠ .recoverAccepted) :
    sinceRecover (event :: events) = event :: sinceRecover events := by
  simp [sinceRecover, h]

theorem faultsSinceRecover_cons {event : ModeEvent} (h : event ≠ .recoverAccepted) :
    faultsSinceRecover timeout (event :: events) =
      (faultAt timeout (selfTested timeout events) (heartbeatAge events) event).toList ++
        faultsSinceRecover timeout events := by
  cases event with
  | recoverAccepted => exact absurd rfl h
  | _ => rfl

theorem mem_faults_of_sinceRecover {fault : Fault}
    (h : fault ∈ faultsSinceRecover timeout events) : fault ∈ faults timeout events := by
  induction events with
  | nil => exact h
  | cons event earlier ih =>
      by_cases hevent : event = .recoverAccepted
      · subst hevent
        cases h
      · rw [faultsSinceRecover_cons hevent, List.mem_append] at h
        rw [faults, List.mem_append]
        exact h.imp_right ih

/-- A fault is one that an event reports or the watchdog's. -/
theorem mem_faults {fault : Fault} (h : fault ∈ faults timeout events) :
    .fault fault ∈ events ∨ fault = watchdogFault := by
  induction events with
  | nil => cases h
  | cons event earlier ih =>
      rw [faults, List.mem_append] at h
      rcases h with h | h
      · cases event with
        | fault reported =>
            have heq : fault = reported := by simpa [faultAt] using h
            exact .inl (heq ▸ List.mem_cons_self)
        | tick =>
            right
            simp only [faultAt, Option.mem_toList, Option.ite_none_right_eq_some,
              Option.some.injEq] at h
            exact h.2.symm
        | _ => cases h
      · exact (ih h).imp_left (List.mem_cons_of_mem event)

/-- Without a severe fault the self-test counts as soon as it has been marked. -/
theorem selfTested_iff (h : ¬∃ fault ∈ faults timeout events, fault.Severe) :
    selfTested timeout events = true ↔ .selfTestPassed ∈ sinceRecover events := by
  induction events with
  | nil => simp [selfTested]
  | cons event earlier ih =>
      have hearlier : ¬∃ fault ∈ faults timeout earlier, fault.Severe := by
        rintro ⟨fault, hfault, hsevere⟩
        refine h ⟨fault, ?_, hsevere⟩
        rw [faults]
        exact List.mem_append_right _ hfault
      cases event with
      | selfTestPassed =>
          have hany : (faults timeout earlier).any (fun fault => fault.Severe) = false := by
            simpa using hearlier
          simp [selfTested, hany, sinceRecover_cons]
      | recoverAccepted => simp [selfTested]
      | _ => simpa [selfTested, sinceRecover_cons] using ih hearlier

end Events

namespace Supervisor

/-- The mode logic's state holds what the events say. -/
structure Tracks (timeout : U16) (events : List ModeEvent) (s : Supervisor) : Prop where
  limit : s.timeout = timeout
  clock : s.elapsedMs - s.lastHeartbeatMs = BitVec.ofNat 32 (heartbeatAge events)
  tested : s.selfTestPassed = selfTested timeout events
  seen : s.heartbeatSeen = true ↔ .heartbeatAccepted ∈ sinceRecover events
  safe : s.state = .safe ↔ ∃ fault ∈ faults timeout events, fault.Severe
  bits : s.faultBitmap = 0 ↔ ∀ fault ∈ faultsSinceRecover timeout events, fault.word = 0

variable {timeout : U16} {events : List ModeEvent} {s s' : Supervisor} {event : ModeEvent}

theorem tracks_start (timeout : U16) : (start timeout).Tracks timeout [] where
  limit := rfl
  clock := by simp [start, heartbeatAge]
  tested := rfl
  seen := by simp [start]
  safe := by simp [start, faults]
  bits := by simp [start, faultsSinceRecover]

/-- Only an accepted heartbeat or recovery touches the heartbeat flag. -/
theorem Tracks.seen_cons (h : s.Tracks timeout events) (hheartbeat : event ≠ .heartbeatAccepted)
    (hrecover : event ≠ .recoverAccepted) :
    s.heartbeatSeen = true ↔ .heartbeatAccepted ∈ sinceRecover (event :: events) := by
  rw [sinceRecover_cons hrecover, List.mem_cons, h.seen]
  exact (or_iff_right hheartbeat.symm).symm

/-- The advanced clocks differ by one more tick. -/
theorem Tracks.advance_clock (h : s.Tracks timeout events) :
    s.advance.elapsedMs - s.advance.lastHeartbeatMs =
      BitVec.ofNat 32 (heartbeatAge events + 1) := by
  have hclock := h.clock
  rw [BitVec.ofNat_add, ← hclock]
  simp only [advance]
  grind

/-- The watchdog's test on the clocks, as a condition on the number of ticks. -/
theorem Tracks.expired_iff (h : s.Tracks timeout events) :
    s.advance.Expired ↔
      selfTested timeout events = true ∧ timeout.toNat < (heartbeatAge events + 1) % 2 ^ 32 := by
  have htimeout : timeout.toNat < 2 ^ 16 := timeout.isLt
  have htested : s.advance.selfTestPassed = selfTested timeout events := h.tested
  have hlimit : s.advance.timeout = timeout := h.limit
  rw [Expired, h.advance_clock, htested, hlimit, BitVec.lt_def, BitVec.toNat_setWidth,
    BitVec.toNat_ofNat, Nat.mod_eq_of_lt (by omega)]

/-- Latching a fault keeps the two fault clauses, with the fault in front. -/
theorem Tracks.latch (h : s.Tracks timeout events) (fault : Fault) :
    ((s.latch fault).state = .safe ↔
      ∃ fault' ∈ fault :: faults timeout events, fault'.Severe) ∧
    ((s.latch fault).faultBitmap = 0 ↔
      ∀ fault' ∈ fault :: faultsSinceRecover timeout events, fault'.word = 0) := by
  constructor
  · simp only [List.mem_cons, exists_eq_or_imp, ← h.safe]
    rcases s.latch_cases fault with ⟨heq, hlock⟩ | ⟨heq, hfault, hsafe⟩
    · simp [heq, hlock]
    · simp [heq, hfault, hsafe]
  · rw [List.forall_mem_cons, ← h.bits]
    exact BitVec.or_eq_zero_iff.trans And.comm

theorem Tracks.passSelfTest (h : s.Tracks timeout events) :
    s.passSelfTest.Tracks timeout (.selfTestPassed :: events) := by
  have hseen : s.heartbeatSeen = true ↔
      .heartbeatAccepted ∈ sinceRecover (.selfTestPassed :: events) :=
    h.seen_cons (by simp) (by simp)
  have htested (hsafe : s.state ≠ .safe) :
      true = selfTested timeout (.selfTestPassed :: events) := by
    have hany : (faults timeout events).any (fun fault => fault.Severe) = false := by
      simpa using mt h.safe.mpr hsafe
    simp [selfTested, hany]
  rcases s.passSelfTest_cases with ⟨heq, hsafe⟩ | ⟨heq, hsafe, _⟩ | ⟨heq, hsafe, _⟩
  · -- after a severe fault the call is ignored
    have hany : (faults timeout events).any (fun fault => fault.Severe) = true := by
      simpa using h.safe.mp hsafe
    rw [heq]
    exact ⟨h.limit, h.clock, by simp [selfTested, hany, h.tested], hseen, h.safe, h.bits⟩
  · rw [heq]
    refine ⟨h.limit, h.clock, htested hsafe, hseen, ?_, h.bits⟩
    exact iff_of_false (by simp) (mt h.safe.mpr hsafe)
  · rw [heq]
    exact ⟨h.limit, h.clock, htested hsafe, hseen, h.safe, h.bits⟩

theorem Tracks.acceptHeartbeat (h : s.Tracks timeout events) :
    s.acceptHeartbeat.Tracks timeout (.heartbeatAccepted :: events) := by
  have hclock : s.elapsedMs - s.elapsedMs =
      BitVec.ofNat 32 (heartbeatAge (.heartbeatAccepted :: events)) := by
    simp [heartbeatAge]
  have hseen : true = true ↔
      ModeEvent.heartbeatAccepted ∈ sinceRecover (.heartbeatAccepted :: events) := by
    simp [sinceRecover_cons]
  rcases s.acceptHeartbeat_cases with ⟨heq, hsafe, _⟩ | ⟨heq, _⟩
  · rw [heq]
    refine ⟨h.limit, hclock, h.tested, hseen, ?_, h.bits⟩
    exact iff_of_false (by simp) (mt h.safe.mpr hsafe)
  · rw [heq]
    exact ⟨h.limit, hclock, h.tested, hseen, h.safe, h.bits⟩

theorem Tracks.step (h : s.Tracks timeout events) (hstep : s.Step event s') :
    s'.Tracks timeout (event :: events) := by
  cases hstep with
  | selfTestPassed => exact h.passSelfTest
  | heartbeatAccepted => exact h.acceptHeartbeat
  | fault fault =>
      obtain ⟨hsafe, hbits⟩ := h.latch fault
      exact ⟨h.limit, h.clock, h.tested, h.seen_cons (by simp) (by simp), hsafe, hbits⟩
  | recoverAccepted hrecoverable =>
      have hsafe : ¬s.state = .safe := by simp [hrecoverable.1]
      refine ⟨h.limit, h.clock, rfl, by simp [recovered], ?_,
        by simp [recovered, faultsSinceRecover]⟩
      exact iff_of_false (by simp [recovered]) (mt h.safe.mpr hsafe)
  | tick hexpired =>
      have hnone : faultAt timeout (selfTested timeout events) (heartbeatAge events) .tick = none :=
        if_neg (fun hlate => hexpired (h.expired_iff.mpr hlate))
      refine ⟨h.limit, h.advance_clock, h.tested, h.seen_cons (by simp) (by simp), ?_, ?_⟩
      · rw [faults, hnone]
        exact h.safe
      · rw [faultsSinceRecover_cons (by simp), hnone]
        exact h.bits
  | expire hexpired =>
      have hsome : faultAt timeout (selfTested timeout events) (heartbeatAge events) .tick =
          some watchdogFault := if_pos (h.expired_iff.mp hexpired)
      obtain ⟨hsafe, hbits⟩ := h.latch watchdogFault
      refine ⟨h.limit, h.advance_clock, h.tested, h.seen_cons (by simp) (by simp), ?_, ?_⟩
      · rw [faults, hsome]
        exact hsafe
      · rw [faultsSinceRecover_cons (by simp), hsome]
        exact hbits
  | other => exact ⟨h.limit, h.clock, h.tested, h.seen_cons (by simp) (by simp), h.safe, h.bits⟩

end Supervisor

/-- After every run, the controller's mode logic holds what the events say. -/
theorem run_tracks (memory : Controller) {config : Config} (hconfig : config.Valid)
    (calls : List Call) :
    (supervisor (run memory config calls).state).Tracks config.watchdogTimeoutMs
      (modeEvents (run memory config calls).history) := by
  refine (run_supervisor memory hconfig calls).invariant
    (fun events s => s.Tracks config.watchdogTimeoutMs events) (Supervisor.tracks_start _) ?_
  intro _ _ _ _ h hstep
  exact h.step hstep

/-- Faults that the calls of a run report carry a bit if the latched ones do. -/
theorem run_faults_ne_zero (memory : Controller) (config : Config) (calls : List Call)
    (hwords : ∀ fault critical, .latchFault fault critical ∈ calls → fault ≠ 0)
    {fault : Fault}
    (h : fault ∈ faults config.watchdogTimeoutMs
      (modeEvents (run memory config calls).history)) :
    fault.word ≠ 0 := by
  rcases mem_faults h with h | rfl
  · obtain ⟨x, hx, hevent⟩ := List.mem_map.mp h
    rcases modeEvent_fault x hevent with hcall | ⟨hword, _⟩
    · have hmem : x.call ∈ (run memory config calls).history.map Machine.Exchange.call :=
        List.mem_map_of_mem hx
      rw [run, Machine.run_calls, List.mem_reverse, hcall] at hmem
      exact hwords _ _ hmem
    · exact hword
  · decide

/-- The state after a run is the mode of its history: safe after a severe
fault, degraded after a fault since the last accepted recovery, operational
once the self-test has passed and a heartbeat has been accepted since then, and
initial otherwise. -/
theorem run_state_eq_mode (memory : Controller) (config : Config) (hconfig : config.Valid)
    (calls : List Call)
    (hwords : ∀ fault critical, .latchFault fault critical ∈ calls → fault ≠ 0) :
    (run memory config calls).state.state =
      mode config.watchdogTimeoutMs (modeEvents (run memory config calls).history) := by
  have htracks := run_tracks memory hconfig calls
  have hsound := run_sound memory hconfig calls
  have hmarked := run_marked memory hconfig calls (by
    rintro before after rfl
    exact absurd rfl (hwords 0 false (by simp)))
  set c := (run memory config calls).state
  set events := modeEvents (run memory config calls).history
  -- with a bit in every fault, an empty bitmap means no fault at all
  have hempty : c.faultBitmap = 0 ↔
      faultsSinceRecover config.watchdogTimeoutMs events = [] := by
    refine htracks.bits.trans ⟨fun hall => ?_, fun hnil => by simp [hnil]⟩
    apply List.eq_nil_iff_forall_not_mem.mpr
    intro fault hfault
    exact run_faults_ne_zero memory config calls hwords (mem_faults_of_sinceRecover hfault)
      (hall fault hfault)
  unfold mode
  by_cases hsafe : c.state = .safe
  · rw [if_pos (htracks.safe.mp hsafe), hsafe]
  · have hsevere := mt htracks.safe.mpr hsafe
    have htested : c.selfTestPassed = true ↔ .selfTestPassed ∈ sinceRecover events := by
      have hflag : c.selfTestPassed = selfTested config.watchdogTimeoutMs events :=
        htracks.tested
      rw [hflag, selfTested_iff hsevere]
    rw [if_neg hsevere]
    cases hstate : c.state with
    | init =>
        obtain ⟨hbits, hflags⟩ := hsound.init hstate
        have hflags' : ¬(.selfTestPassed ∈ sinceRecover events ∧
            .heartbeatAccepted ∈ sinceRecover events) := by
          rw [← htested, ← htracks.seen]
          exact hflags
        rw [if_neg (not_not.mpr (hempty.mp hbits)), if_neg hflags']
    | operational =>
        obtain ⟨hpassed, hseen, hbits⟩ := hsound.operational hstate
        rw [if_neg (not_not.mpr (hempty.mp hbits)),
          if_pos ⟨htested.mp hpassed, htracks.seen.mp hseen⟩]
    | degraded =>
        have hfaults := mt hempty.mpr (hmarked hstate)
        rw [if_pos hfaults]
    | safe => exact absurd hstate hsafe

/-- Self-test and heartbeat after a recovery make the controller operational
again. -/
theorem run_state_eq_mode_recovered :
    (run zeroController defaultConfig
      [.spiWrite 16 0, .recover, .heartbeat 1, .markSelfTestPassed]).state.state =
        .operational := by
  rw [run_state_eq_mode zeroController defaultConfig defaultConfig_valid _ (by simp)]
  decide

end Esqh
