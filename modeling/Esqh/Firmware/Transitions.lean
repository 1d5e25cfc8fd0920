import Esqh.Firmware.Supervisor

/-!
What no interleaving of calls can do to the mode: leave the safe state, clear a
fault that recovery may not clear, or reach a mode whose flags and fault bitmap
contradict it. The last section compares the transitions with the documented
ones.
-/

namespace Esqh

namespace Supervisor

/-- The mode agrees with the fault bitmap and the start-up flags. The clauses
are inductive only together. -/
structure Sound (s : Supervisor) : Prop where
  locked : s.faultBitmap &&& ~~~recoverableFaults ≠ 0 → s.state = .safe
  operational : s.state = .operational →
    s.selfTestPassed = true ∧ s.heartbeatSeen = true ∧ s.faultBitmap = 0
  init : s.state = .init →
    s.faultBitmap = 0 ∧ ¬(s.selfTestPassed = true ∧ s.heartbeatSeen = true)

variable {s s' : Supervisor} {event : ModeEvent}

theorem sound_start (timeout : U16) : (start timeout).Sound where
  locked := by simp [start]
  operational := by simp [start]
  init := by simp [start]

theorem Sound.latch (h : s.Sound) (fault : Fault) : (s.latch fault).Sound := by
  rcases s.latch_cases fault with ⟨heq, _⟩ | ⟨heq, hfault, hsafe⟩
  · rw [heq]
    exact ⟨fun _ => rfl, by simp, by simp⟩
  · rw [heq]
    refine ⟨fun hbits => absurd ?_ hbits, by simp, by simp⟩
    -- neither the old bitmap nor the new word has a severe bit
    have hold : s.faultBitmap &&& ~~~recoverableFaults = 0 := by
      by_contra hbits
      exact hsafe (h.locked hbits)
    have hnew : fault.word &&& ~~~recoverableFaults = 0 := by
      by_contra hbits
      exact hfault (.inr hbits)
    rw [BitVec.and_or_distrib_right, hold, hnew]
    rfl

theorem Sound.passSelfTest (h : s.Sound) : s.passSelfTest.Sound := by
  rcases s.passSelfTest_cases with ⟨heq, _⟩ | ⟨heq, hsafe, hready⟩ | ⟨heq, hsafe, hready⟩
  · rw [heq]
    exact h
  · rw [heq]
    exact ⟨fun hbits => absurd (h.locked hbits) hsafe, fun _ => ⟨rfl, hready⟩, by simp⟩
  · rw [heq]
    refine ⟨h.locked, fun hstate => ⟨rfl, (h.operational hstate).2⟩, fun hstate => ?_⟩
    have hbits := (h.init hstate).1
    exact ⟨hbits, fun hflags => hready ⟨hflags.2, hbits⟩⟩

theorem Sound.acceptHeartbeat (h : s.Sound) : s.acceptHeartbeat.Sound := by
  rcases s.acceptHeartbeat_cases with ⟨heq, hsafe, htested, hbits⟩ | ⟨heq, hready⟩
  · rw [heq]
    exact ⟨fun hsevere => absurd (h.locked hsevere) hsafe, fun _ => ⟨htested, rfl, hbits⟩,
      by simp⟩
  · rw [heq]
    refine ⟨h.locked, fun hstate => ?_, fun hstate => ?_⟩
    · obtain ⟨htested, _, hbits⟩ := h.operational hstate
      exact ⟨htested, rfl, hbits⟩
    · have hbits := (h.init hstate).1
      have hsafe : s.state ≠ .safe := fun hsafe => absurd (hstate.symm.trans hsafe) (by decide)
      exact ⟨hbits, fun hflags => hready ⟨hsafe, hflags.1, hbits⟩⟩

theorem sound_recovered (s : Supervisor) : s.recovered.Sound where
  locked := by simp [recovered]
  operational := by simp [recovered]
  init := by simp [recovered]

theorem Sound.advance (h : s.Sound) : s.advance.Sound := ⟨h.locked, h.operational, h.init⟩

theorem Sound.step (h : s.Sound) (hstep : s.Step event s') : s'.Sound := by
  cases hstep with
  | selfTestPassed => exact h.passSelfTest
  | heartbeatAccepted => exact h.acceptHeartbeat
  | fault fault => exact h.latch fault
  | recoverAccepted => exact sound_recovered s
  | tick => exact h.advance
  | expire => exact h.advance.latch watchdogFault
  | other => exact h

/-- No event leaves the safe state. -/
theorem Step.safe (hstep : s.Step event s') (h : s.state = .safe) : s'.state = .safe := by
  cases hstep with
  | selfTestPassed => simp [passSelfTest, h]
  | heartbeatAccepted => simp [acceptHeartbeat, h]
  | fault => simp [latch, h]
  | recoverAccepted hrecoverable => exact absurd (h.symm.trans hrecoverable.1) (by decide)
  | tick => exact h
  | expire => simp [latch, advance, h]
  | other => exact h

/-- No event clears a bit that recovery may not clear: recovery does not happen
while one is set. -/
theorem Step.bit (hstep : s.Step event s') {i : Nat}
    (hi : recoverableFaults.getLsbD i = false) (h : s.faultBitmap.getLsbD i = true) :
    s'.faultBitmap.getLsbD i = true := by
  cases hstep with
  | selfTestPassed =>
      unfold passSelfTest
      split <;> exact h
  | heartbeatAccepted => exact h
  | fault => simp [latch, h]
  | recoverAccepted hrecoverable =>
      have hrange : i < 32 := BitVec.lt_of_getLsbD h
      have hbit : (s.faultBitmap &&& ~~~recoverableFaults).getLsbD i = false := by
        rw [hrecoverable.2.2]
        exact BitVec.getLsbD_zero
      rw [BitVec.getLsbD_and, BitVec.getLsbD_not, h, hi] at hbit
      simp [hrange] at hbit
  | tick => exact h
  | expire => simp [latch, advance, h]
  | other => exact h

end Supervisor

theorem run_sound (memory : Controller) {config : Config} (hconfig : config.Valid)
    (calls : List Call) :
    (supervisor (run memory config calls).state).Sound := by
  refine (run_supervisor memory hconfig calls).invariant (fun _ s => s.Sound)
    (Supervisor.sound_start _) ?_
  intro _ s _ s' h hstep
  exact h.step hstep

theorem run_safe (memory : Controller) (config : Config) (before after : List Call)
    (h : (run memory config before).state.state = .safe) :
    (run memory config (before ++ after)).state.state = .safe := by
  refine Machine.run_stable step _ (fun c => c.state = .safe) ?_ before after h
  intro c call h
  exact (step_supervisor c call).safe h

theorem run_bit (memory : Controller) (config : Config) {i : Nat}
    (hi : recoverableFaults.getLsbD i = false) (before after : List Call)
    (h : (run memory config before).state.faultBitmap.getLsbD i = true) :
    (run memory config (before ++ after)).state.faultBitmap.getLsbD i = true := by
  refine Machine.run_stable step _ (fun c => c.faultBitmap.getLsbD i = true) ?_ before after h
  intro c call h
  exact (step_supervisor c call).bit hi h

/-- The safe state and the severe faults stay for the rest of a run, severe
faults hold the controller in the safe state, and neither an operational nor an
initial controller contradicts its flags and fault bitmap. -/
theorem run_mode_invariant (memory : Controller) (config : Config) (hconfig : config.Valid)
    (before after : List Call) :
    let c := (run memory config before).state
    let c' := (run memory config (before ++ after)).state
    (c.state = .safe → c'.state = .safe) ∧
    (c.faultBitmap &&& ~~~recoverableFaults ≠ 0 → c.state = .safe) ∧
    (c.state = .operational →
      c.selfTestPassed = true ∧ c.heartbeatSeen = true ∧ c.faultBitmap = 0) ∧
    (c.state = .init →
      c.faultBitmap = 0 ∧ ¬(c.selfTestPassed = true ∧ c.heartbeatSeen = true)) ∧
    (∀ i, recoverableFaults.getLsbD i = false → c.faultBitmap.getLsbD i = true →
      c'.faultBitmap.getLsbD i = true) := by
  intro c c'
  have hsound : (supervisor c).Sound := run_sound memory hconfig before
  refine ⟨?_, hsound.locked, hsound.operational, hsound.init, ?_⟩
  · exact run_safe memory config before after
  · intro i hi
    exact run_bit memory config hi before after

/-- A critical fault enters the safe state, which recovery does not leave. -/
theorem run_mode_invariant_critical :
    (run zeroController defaultConfig [.latchFault faultCritical true]).state.state = .safe ∧
      (run zeroController defaultConfig
        ([.latchFault faultCritical true] ++ [.recover, .heartbeat 1])).state.state = .safe := by
  have hsafe :
      (run zeroController defaultConfig [.latchFault faultCritical true]).state.state = .safe := by
    decide
  exact ⟨hsafe,
    (run_mode_invariant zeroController defaultConfig defaultConfig_valid
      [.latchFault faultCritical true] [.recover, .heartbeat 1]).1 hsafe⟩

/-! The documented transitions. -/

/-- The transition table of the mode. Any fault that is not severe counts as
recoverable. -/
inductive Documented : State → ModeEvent → State → Prop
  | unchanged (state event) : Documented state event state
  | selfTest : Documented .init .selfTestPassed .operational
  | heartbeat : Documented .init .heartbeatAccepted .operational
  | degrade {state} (hstate : state = .init ∨ state = .operational) (fault : Fault)
      (hfault : ¬fault.Severe) : Documented state (.fault fault) .degraded
  | lock {state} (hstate : state ≠ .safe) (fault : Fault) (hfault : fault.Severe) :
      Documented state (.fault fault) .safe
  | watchdog {state} (hstate : state ≠ .safe) : Documented state .tick .safe
  | recover : Documented .degraded .recoverAccepted .init

/-- The latch that sets no bit and is not critical. -/
def emptyFault : Fault := ⟨0, false⟩

namespace Supervisor

variable {s s' : Supervisor} {event : ModeEvent}

/-- A degraded mode has a fault to show for it. -/
def Marked (s : Supervisor) : Prop := s.state = .degraded → s.faultBitmap ≠ 0

theorem Marked.latch (h : s.Marked) (fault : Fault)
    (hfault : fault = emptyFault → s.state = .degraded ∨ s.state = .safe) :
    (s.latch fault).Marked := by
  rcases s.latch_cases fault with ⟨heq, _⟩ | ⟨heq, hsevere, hsafe⟩
  · rw [heq]
    intro hdegraded
    cases hdegraded
  · rw [heq]
    intro _ hbits
    obtain ⟨hold, hword⟩ := BitVec.or_eq_zero_iff.mp hbits
    have hempty : fault = emptyFault := by
      obtain ⟨word, critical⟩ := fault
      cases critical with
      | false => exact congrArg (Fault.mk · false) hword
      | true => exact absurd (.inl rfl) hsevere
    rcases hfault hempty with hstate | hstate
    · exact h hstate hold
    · exact hsafe hstate

theorem Marked.step (h : s.Marked) (hstep : s.Step event s')
    (hfault : event = .fault emptyFault → s.state = .degraded ∨ s.state = .safe) :
    s'.Marked := by
  cases hstep with
  | selfTestPassed =>
      rcases s.passSelfTest_cases with ⟨heq, _⟩ | ⟨heq, _⟩ | ⟨heq, _⟩
      · rwa [heq]
      · simp [heq, Marked]
      · rwa [heq]
  | heartbeatAccepted =>
      rcases s.acceptHeartbeat_cases with ⟨heq, _⟩ | ⟨heq, _⟩
      · simp [heq, Marked]
      · rwa [heq]
  | fault fault => exact h.latch fault (fun hempty => hfault (congrArg _ hempty))
  | recoverAccepted => simp [Marked, recovered]
  | tick => exact h
  | expire =>
      have hadvance : s.advance.Marked := h
      exact hadvance.latch watchdogFault (fun hempty => absurd hempty (by decide))
  | other => exact h

/-- Where nothing is wrong, the mode is starting up or operational. -/
theorem Marked.starting (h : s.Marked) (hsafe : s.state ≠ .safe) (hbits : s.faultBitmap = 0) :
    s.state = .init ∨ s.state = .operational := by
  cases hstate : s.state with
  | init => exact .inl rfl
  | operational => exact .inr rfl
  | degraded => exact absurd hbits (h hstate)
  | safe => exact absurd hstate hsafe

/-- From a mode whose degraded state has a fault, every event's transition is
documented. -/
theorem Marked.documented (h : s.Marked) (hstep : s.Step event s') :
    Documented s.state event s'.state := by
  cases hstep with
  | selfTestPassed =>
      rcases s.passSelfTest_cases with ⟨heq, _⟩ | ⟨heq, hsafe, _, hbits⟩ | ⟨heq, _⟩
      · rw [heq]
        exact .unchanged _ _
      · rw [heq]
        rcases h.starting hsafe hbits with hstate | hstate
        · rw [hstate]
          exact .selfTest
        · rw [hstate]
          exact .unchanged _ _
      · rw [heq]
        exact .unchanged _ _
  | heartbeatAccepted =>
      rcases s.acceptHeartbeat_cases with ⟨heq, hsafe, _, hbits⟩ | ⟨heq, _⟩
      · rw [heq]
        rcases h.starting hsafe hbits with hstate | hstate
        · rw [hstate]
          exact .heartbeat
        · rw [hstate]
          exact .unchanged _ _
      · rw [heq]
        exact .unchanged _ _
  | fault fault =>
      rcases s.latch_cases fault with ⟨heq, hlock⟩ | ⟨heq, hfault, hsafe⟩
      · rw [heq]
        by_cases hsafe : s.state = .safe
        · rw [hsafe]
          exact .unchanged _ _
        · exact .lock hsafe fault (hlock.resolve_right hsafe)
      · rw [heq]
        cases hstate : s.state with
        | init => exact .degrade (.inl rfl) fault hfault
        | operational => exact .degrade (.inr rfl) fault hfault
        | degraded => exact .unchanged _ _
        | safe => exact absurd hstate hsafe
  | recoverAccepted hrecoverable =>
      rw [hrecoverable.1]
      exact .recover
  | tick => exact .unchanged _ _
  | expire =>
      have hlatch : (s.advance.latch watchdogFault).state = .safe :=
        State.latch_of_severe s.state watchdogFault_severe
      rw [hlatch]
      by_cases hsafe : s.state = .safe
      · rw [hsafe]
        exact .unchanged _ _
      · exact .watchdog hsafe
  | other => exact .unchanged _ _

end Supervisor

/-- The event that a call amounts to when it is made in a state. -/
def eventOf (c : Controller) (call : Call) : ModeEvent := modeEvent ⟨call, (step c call).1⟩

theorem eq_latchFault_of_eventOf {c : Controller} {call : Call}
    (h : eventOf c call = .fault emptyFault) : call = .latchFault 0 false :=
  (modeEvent_fault _ h).resolve_right (fun hbits => hbits.1 rfl)

theorem run_marked (memory : Controller) {config : Config} (hconfig : config.Valid)
    (calls : List Call)
    (hcalls : ∀ before after, calls = before ++ .latchFault 0 false :: after →
      (run memory config before).state.state = .degraded ∨
        (run memory config before).state.state = .safe) :
    (supervisor (run memory config calls).state).Marked := by
  refine Machine.run_invariant_of_calls step _ (fun r => (supervisor r.state).Marked)
    (fun r call => call = .latchFault 0 false →
      r.state.state = .degraded ∨ r.state.state = .safe) ?_ ?_ calls ?_
  · rw [supervisor_controllerInit memory hconfig]
    simp [Supervisor.Marked, Supervisor.start]
  · intro r call h hcall
    apply h.step (step_supervisor r.state call)
    intro hevent
    exact hcall (eq_latchFault_of_eventOf hevent)
  · rintro before _ after hsplit rfl
    exact hcalls before after hsplit

/-- Latching the empty fault degrades a controller that has no fault. -/
theorem latchFault_empty (c : Controller) (hsafe : c.state ≠ .safe) (hbits : c.faultBitmap = 0) :
    (latchFault c 0 false).state = .degraded ∧ (latchFault c 0 false).faultBitmap = 0 := by
  rw [latchFault_eq]
  exact ⟨State.latch_of_not_severe (by decide) hsafe, by simp [hbits]⟩

/-- Every call of a run makes a documented transition, and every degraded state
it passes through has faults, only recoverable ones, and can be recovered from. -/
def DocumentedRun (memory : Controller) (config : Config) (calls : List Call) : Prop :=
  (∀ before call after, calls = before ++ call :: after →
    let c := (run memory config before).state
    Documented c.state (eventOf c call) (run memory config (before ++ [call])).state.state) ∧
  (∀ before after, calls = before ++ after →
    let c := (run memory config before).state
    c.state = .degraded →
      c.faultBitmap ≠ 0 ∧ c.faultBitmap &&& ~~~recoverableFaults = 0 ∧ (recover c).1 = .ok)

/-- A run is documented exactly if it never latches the empty fault in an
initial or operational state. -/
theorem run_documented_iff (memory : Controller) (config : Config) (hconfig : config.Valid)
    (calls : List Call) :
    DocumentedRun memory config calls ↔
      ∀ before after, calls = before ++ .latchFault 0 false :: after →
        (run memory config before).state.state ≠ .init ∧
          (run memory config before).state.state ≠ .operational := by
  constructor
  · rintro ⟨-, hdegraded⟩ before after hsplit
    -- the latch would degrade a controller that has no fault
    have hsound := run_sound memory hconfig before
    have hmarked := hdegraded (before ++ [.latchFault 0 false]) after (by simp [hsplit])
    rw [run, Machine.run_snoc] at hmarked
    have hlatch (hsafe : (run memory config before).state.state ≠ .safe) :
        (run memory config before).state.faultBitmap ≠ 0 := by
      intro hbits
      obtain ⟨hstate, hempty⟩ := latchFault_empty _ hsafe hbits
      exact (hmarked hstate).1 hempty
    constructor
    · intro hinit
      exact hlatch (by simp [hinit]) (hsound.init hinit).1
    · intro hoperational
      exact hlatch (by simp [hoperational]) (hsound.operational hoperational).2.2
  · intro hcalls
    have hallowed : ∀ before after, calls = before ++ .latchFault 0 false :: after →
        (run memory config before).state.state = .degraded ∨
          (run memory config before).state.state = .safe := by
      intro before after hsplit
      obtain ⟨hinit, hoperational⟩ := hcalls before after hsplit
      cases hstate : (run memory config before).state.state with
      | init => exact absurd hstate hinit
      | operational => exact absurd hstate hoperational
      | degraded => exact .inl rfl
      | safe => exact .inr rfl
    have hreached : ∀ before after, calls = before ++ after →
        (supervisor (run memory config before).state).Marked := by
      rintro before after rfl
      apply run_marked memory hconfig before
      rintro earlier later rfl
      exact hallowed earlier (later ++ after) (by simp)
    constructor
    · intro before call after hsplit c
      have hnext : run memory config (before ++ [call]) =
          (run memory config before).next step call := Machine.run_snoc step _ before call
      rw [hnext]
      exact (hreached before (call :: after) hsplit).documented (step_supervisor c call)
    · intro before after hsplit c hstate
      have hbits : c.faultBitmap ≠ 0 := hreached before after hsplit hstate
      have hsevere : c.faultBitmap &&& ~~~recoverableFaults = 0 := by
        by_contra hsevere
        have hsafe : c.state = .safe := (run_sound memory hconfig before).locked hsevere
        exact absurd (hstate.symm.trans hsafe) (by decide)
      exact ⟨hbits, hsevere, (recover_ok_iff c).mpr ⟨hstate, hbits, hsevere⟩⟩

/-- A run without an empty fault is documented. -/
theorem run_documented_iff_recovered :
    DocumentedRun zeroController defaultConfig
      [.markSelfTestPassed, .heartbeat 1, .heartbeat 1, .recover] := by
  apply (run_documented_iff zeroController defaultConfig defaultConfig_valid _).mpr
  intro before after hsplit
  have hmem : Call.latchFault 0 false ∈
      [Call.markSelfTestPassed, .heartbeat 1, .heartbeat 1, .recover] := by
    rw [hsplit]
    simp
  simp at hmem

/-- Latching the empty fault right after initialisation leaves a degraded
controller without a fault: it cannot recover, and self-test and heartbeat make
it operational. -/
theorem run_undocumented :
    defaultConfig.Valid ∧
      ¬DocumentedRun zeroController defaultConfig
        [.latchFault 0 false, .markSelfTestPassed, .heartbeat 1] ∧
      (recover (run zeroController defaultConfig [.latchFault 0 false]).state).1 = .errState ∧
      (run zeroController defaultConfig
        [.latchFault 0 false, .markSelfTestPassed]).state.state = .degraded ∧
      (run zeroController defaultConfig
        [.latchFault 0 false, .markSelfTestPassed, .heartbeat 1]).state.state = .operational := by
  refine ⟨defaultConfig_valid, ?_, by decide, by decide, by decide⟩
  intro h
  have hdirect : Documented .degraded .heartbeatAccepted .operational :=
    h.1 [.latchFault 0 false, .markSelfTestPassed] (.heartbeat 1) [] rfl
  cases hdirect

end Esqh
