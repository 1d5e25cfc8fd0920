import Esqh.Firmware.ModeHistory

/-!
The watchdog against the true number of ticks since the last accepted
heartbeat, which the controller only knows modulo `2 ^ 32`, and what that
number is while the controller is operational.
-/

namespace Esqh

/-- The exact number of ticks since the last accepted heartbeat of a history. -/
def ticksSinceHeartbeat (history : History) : Nat := heartbeatAge (modeEvents history)

theorem Config.Valid.watchdogTimeoutMs_le {config : Config} (h : config.Valid) :
    config.watchdogTimeoutMs.toNat ≤ 1000 := by
  by_contra hlarge
  have hguard : config.watchdogTimeoutMs = 0 ∨ config.watchdogTimeoutMs > 1000 := by
    right
    rw [gt_iff_lt, BitVec.lt_def]
    simpa using hlarge
  rw [Config.Valid, configIsValid, if_pos hguard] at h
  cases h

theorem and_faultWatchdog_eq_zero_iff (word : U32) :
    word &&& faultWatchdog = 0 ↔ word.getLsbD 16 = false := by
  have hbit : faultWatchdog = BitVec.twoPow 32 16 := by decide
  have hpow : BitVec.twoPow 32 16 ≠ 0 := by decide
  rw [hbit, BitVec.and_twoPow]
  cases word.getLsbD 16 with
  | false => exact iff_of_true rfl rfl
  | true => exact iff_of_false hpow (by simp)

theorem tick_of_expired_locks {c : Controller} (h : c.Expired) :
    (tick c).state = .safe ∧ (tick c).faultBitmap.getLsbD 16 = true := by
  rw [tick_of_expired c h, latchFault_eq]
  have hbit : faultWatchdog.getLsbD 16 = true := by decide
  exact ⟨State.latch_of_severe c.state watchdogFault_severe, by simp [hbit]⟩

section Runs

variable (memory : Controller) {config : Config} (hconfig : config.Valid) (before : List Call)

theorem ticksSinceHeartbeat_tick :
    ticksSinceHeartbeat (run memory config (before ++ [Call.tick])).history =
      ticksSinceHeartbeat (run memory config before).history + 1 := by
  rw [run, Machine.run_snoc]
  rfl

theorem run_tick :
    (run memory config (before ++ [Call.tick])).state = tick (run memory config before).state := by
  rw [run, Machine.run_snoc]
  rfl

include hconfig

/-- A tick trips the watchdog when the age it makes exceeds the timeout, as far
as 32 bits can tell. -/
theorem run_expired_iff :
    (run memory config before).state.Expired ↔
      (run memory config before).state.selfTestPassed = true ∧
        config.watchdogTimeoutMs.toNat <
          (ticksSinceHeartbeat (run memory config before).history + 1) % 2 ^ 32 := by
  have htracks := run_tracks memory hconfig before
  have hflag : (run memory config before).state.selfTestPassed =
      selfTested config.watchdogTimeoutMs (modeEvents (run memory config before).history) :=
    htracks.tested
  rw [hflag]
  exact htracks.expired_iff

end Runs

/-- A tick that outlasts the timeout under supervision trips the watchdog,
whose fault and safe state then stay; no other tick sets the watchdog's fault.
The age of the heartbeat is exact, however often the clock has wrapped. -/
theorem run_watchdog_exact (memory : Controller) (config : Config) (hconfig : config.Valid)
    (before after : List Call) :
    let c := (run memory config before).state
    let r := run memory config (before ++ [Call.tick])
    let g := ticksSinceHeartbeat r.history
    (c.selfTestPassed = true → g = config.watchdogTimeoutMs.toNat + 1 →
      let c' := (run memory config (before ++ [Call.tick] ++ after)).state
      c'.state = .safe ∧ c'.faultBitmap &&& faultWatchdog ≠ 0) ∧
    (g ≤ config.watchdogTimeoutMs.toNat ∨ c.selfTestPassed = false →
      c.faultBitmap &&& faultWatchdog = 0 → r.state.faultBitmap &&& faultWatchdog = 0) := by
  intro c r g
  have htimeout := hconfig.watchdogTimeoutMs_le
  have hstate : r.state = tick c := run_tick memory before
  have hexpired : c.Expired ↔
      c.selfTestPassed = true ∧ config.watchdogTimeoutMs.toNat < g % 2 ^ 32 := by
    rw [run_expired_iff memory hconfig before, ← ticksSinceHeartbeat_tick memory before]
  constructor
  · intro hpassed hlate
    -- a valid timeout is far below the clock's range
    have hrange : config.watchdogTimeoutMs.toNat < g % 2 ^ 32 := by
      rw [hlate, Nat.mod_eq_of_lt (by omega)]
      omega
    obtain ⟨hsafe, hbit⟩ := tick_of_expired_locks (hexpired.mpr ⟨hpassed, hrange⟩)
    rw [← hstate] at hsafe hbit
    constructor
    · exact run_safe memory config (before ++ [Call.tick]) after hsafe
    · have hkept := run_bit memory config (by decide) (before ++ [Call.tick]) after hbit
      rw [Ne, and_faultWatchdog_eq_zero_iff, hkept]
      decide
  · intro hearly hclear
    have hnot : ¬c.Expired := by
      intro h
      obtain ⟨hpassed, hlate⟩ := hexpired.mp h
      have hle := Nat.mod_le g (2 ^ 32)
      rcases hearly with hage | hflag
      · omega
      · rw [hpassed] at hflag
        cases hflag
    rw [hstate, tick_of_not_expired c hnot]
    exact hclear

/-- With a timeout of two, the third tick trips the watchdog, and recovery does
not clear the fault. -/
theorem run_watchdog_exact_short :
    let config := { defaultConfig with watchdogTimeoutMs := 2 }
    let c := (run zeroController config
      ([.markSelfTestPassed, .heartbeat 1, .tick, .tick] ++ [Call.tick] ++ [.recover])).state
    c.state = .safe ∧ c.faultBitmap &&& faultWatchdog ≠ 0 :=
  (run_watchdog_exact zeroController { defaultConfig with watchdogTimeoutMs := 2 } (by decide)
    [.markSelfTestPassed, .heartbeat 1, .tick, .tick] [.recover]).1 (by decide) (by decide)

/-! How old the last heartbeat is while the controller is operational. -/

namespace Supervisor

/-- An operational mode has a current heartbeat. -/
def Current (timeout : U16) (events : List ModeEvent) (s : Supervisor) : Prop :=
  s.state = .operational → heartbeatAge events ≤ timeout.toNat

variable {timeout : U16} {events : List ModeEvent} {s s' : Supervisor} {event : ModeEvent}

theorem Current.step (h : s.Current timeout events) (htracks : s.Tracks timeout events)
    (hsound : s.Sound) (htimeout : timeout.toNat ≤ 1000) (hstep : s.Step event s')
    (hmark : event = .selfTestPassed → s.state ≠ .safe → s.heartbeatSeen = true →
      s.faultBitmap = 0 → heartbeatAge events ≤ timeout.toNat) :
    s'.Current timeout (event :: events) := by
  cases hstep with
  | selfTestPassed =>
      rcases s.passSelfTest_cases with ⟨heq, hsafe⟩ | ⟨heq, hsafe, hseen, hbits⟩ | ⟨heq, _⟩
      · rw [heq]
        exact h
      · intro _
        exact hmark rfl hsafe hseen hbits
      · rw [heq]
        exact h
  | heartbeatAccepted => exact fun _ => Nat.zero_le _
  | fault fault =>
      rcases s.latch_cases fault with ⟨heq, _⟩ | ⟨heq, _⟩ <;> simp [Current, heq]
  | recoverAccepted => simp [Current, recovered]
  | tick hexpired =>
      intro hstate
      have hage := h hstate
      have htested : selfTested timeout events = true :=
        htracks.tested.symm.trans (hsound.operational hstate).1
      -- supervised and not expired: one more tick is still within the timeout
      have hlate : ¬timeout.toNat < (heartbeatAge events + 1) % 2 ^ 32 :=
        fun hlate => hexpired (htracks.expired_iff.mpr ⟨htested, hlate⟩)
      rw [Nat.mod_eq_of_lt (by omega)] at hlate
      simp only [heartbeatAge]
      omega
  | expire =>
      rcases s.advance.latch_cases watchdogFault with ⟨heq, _⟩ | ⟨heq, _⟩ <;> simp [Current, heq]
  | other => exact h

end Supervisor

/-- In every state of a run, an operational controller has accepted a heartbeat
at most a timeout ago. -/
def HeartbeatCurrent (memory : Controller) (config : Config) (calls : List Call) : Prop :=
  ∀ before after, calls = before ++ after →
    let r := run memory config before
    r.state.state = .operational →
      ticksSinceHeartbeat r.history ≤ config.watchdogTimeoutMs.toNat

/-- In every run, no self-test call that completes the start-up comes later
than a timeout after the last accepted heartbeat. -/
def SelfTestPrompt (memory : Controller) (config : Config) (calls : List Call) : Prop :=
  ∀ before after, calls = before ++ .markSelfTestPassed :: after →
    let r := run memory config before
    r.state.state ≠ .safe → r.state.heartbeatSeen = true → r.state.faultBitmap = 0 →
      ticksSinceHeartbeat r.history ≤ config.watchdogTimeoutMs.toNat

theorem eq_markSelfTestPassed_of_modeEvent {x : Exchange} (h : modeEvent x = .selfTestPassed) :
    x.call = .markSelfTestPassed := by
  unfold modeEvent at h
  split at h
  case h_1 hcall => exact hcall
  all_goals cases h

theorem run_current (memory : Controller) {config : Config} (hconfig : config.Valid)
    (calls : List Call) (hprompt : SelfTestPrompt memory config calls) :
    (supervisor (run memory config calls).state).Current config.watchdogTimeoutMs
      (modeEvents (run memory config calls).history) := by
  let P (r : Machine.Run Controller Call Reply) : Prop :=
    (supervisor r.state).Tracks config.watchdogTimeoutMs (modeEvents r.history) ∧
      (supervisor r.state).Sound ∧
      (supervisor r.state).Current config.watchdogTimeoutMs (modeEvents r.history)
  have hrun : P (run memory config calls) := by
    refine Machine.run_invariant_of_calls step _ P
      (fun r call => call = .markSelfTestPassed → r.state.state ≠ .safe →
        r.state.heartbeatSeen = true → r.state.faultBitmap = 0 →
        ticksSinceHeartbeat r.history ≤ config.watchdogTimeoutMs.toNat) ?_ ?_ calls ?_
    · simp only [P, supervisor_controllerInit memory hconfig]
      exact ⟨Supervisor.tracks_start _, Supervisor.sound_start _, by
        simp [Supervisor.Current, Supervisor.start]⟩
    · rintro r call ⟨htracks, hsound, hcurrent⟩ hcall
      have hstep := step_supervisor r.state call
      refine ⟨htracks.step hstep, hsound.step hstep, ?_⟩
      apply hcurrent.step htracks hsound hconfig.watchdogTimeoutMs_le hstep
      intro hevent
      exact hcall (eq_markSelfTestPassed_of_modeEvent hevent)
    · rintro before _ after hsplit rfl
      exact hprompt before after hsplit
  exact hrun.2.2

/-- Operational implies a current heartbeat throughout a run exactly if every
self-test call that completes the start-up is prompt. -/
theorem run_heartbeatCurrent_iff (memory : Controller) (config : Config)
    (hconfig : config.Valid) (calls : List Call) :
    HeartbeatCurrent memory config calls ↔ SelfTestPrompt memory config calls := by
  constructor
  · intro hcurrent before after hsplit r hsafe hseen hbits
    -- the call makes the controller operational and is no tick
    have hnext := hcurrent (before ++ [.markSelfTestPassed]) after (by simp [hsplit])
    rw [run, Machine.run_snoc] at hnext
    have hmarked := markSelfTestPassed_of_not_safe r.state hsafe
    rw [if_pos ⟨hseen, hbits⟩] at hmarked
    exact hnext (congrArg Controller.state hmarked)
  · rintro hprompt before after rfl
    apply run_current memory hconfig before
    rintro earlier later rfl
    exact hprompt earlier (later ++ after) (by simp)

/-- A self-test that passes right after the heartbeat is prompt. -/
theorem run_heartbeatCurrent_iff_default :
    HeartbeatCurrent zeroController defaultConfig [.heartbeat 1, .markSelfTestPassed] := by
  apply (run_heartbeatCurrent_iff zeroController defaultConfig defaultConfig_valid _).mpr
  intro before after hsplit
  have hbefore : before = [.heartbeat 1] := by
    rcases before with _ | ⟨first, _ | ⟨second, rest⟩⟩ <;> simp_all
  subst hbefore
  decide

/-- With the default timeout of 100, a self-test that passes 101 ticks after
the heartbeat makes the controller operational. -/
theorem run_heartbeat_stale :
    defaultConfig.Valid ∧
      ¬HeartbeatCurrent zeroController defaultConfig
        ([.heartbeat 1] ++ List.replicate 101 .tick ++ [.markSelfTestPassed]) := by
  refine ⟨defaultConfig_valid, ?_⟩
  intro h
  have hstate : (run zeroController defaultConfig
      ([.heartbeat 1] ++ List.replicate 101 .tick ++ [.markSelfTestPassed])).state.state =
        .operational := by decide +kernel
  have hage : ticksSinceHeartbeat (run zeroController defaultConfig
      ([.heartbeat 1] ++ List.replicate 101 .tick ++ [.markSelfTestPassed])).history = 101 := by
    decide +kernel
  have hle := h _ [] (List.append_nil _).symm hstate
  rw [hage] at hle
  exact absurd hle (by decide)

end Esqh
