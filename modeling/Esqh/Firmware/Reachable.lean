import Esqh.Firmware.ServiceLife

/-!
Which states of the mode logic the controller can get into. The invariant of
the mode cannot be made stronger: each combination of mode, fault bitmap, flags
and clocks that it allows is reached by some run.
-/

namespace Esqh

open Machine

/-- What the mode logic and the sequence guard hold of a controller. -/
structure Controller.Shows (s : Supervisor) (number : U16) (c : Controller) : Prop where
  mode : supervisor c = s
  number : c.lastCommandSequence = number

/-- Without a number no heartbeat has been accepted. -/
def Supervisor.Unheard (s : Supervisor) : Prop :=
  s.heartbeatSeen = false ∧ s.lastHeartbeatMs = 0

section Invariant

theorem Answers.unheard {c c' : Controller} {x : Exchange} (h : Answers c x c')
    (hbefore : c.lastCommandSequence = 0 → (supervisor c).Unheard)
    (hnumber : c'.lastCommandSequence = 0) : (supervisor c').Unheard := by
  have hpositive {sequence : U16} (hfresh : c.lastCommandSequence < sequence) : sequence ≠ 0 := by
    intro hzero
    rw [hzero] at hfresh
    exact Nat.not_lt_zero _ hfresh
  cases h with
  | heartbeatAccepted hfresh => exact absurd hnumber (hpositive hfresh)
  | setpointOutOfRange _ hfresh _ => exact absurd hnumber (hpositive hfresh)
  | setpointAccepted _ hfresh _ _ => exact absurd hnumber (hpositive hfresh)
  | recovered => exact ⟨rfl, (hbefore hnumber).2⟩
  | _ => exact hbefore hnumber

theorem run_unheard (memory : Controller) {config : Config} (hconfig : config.Valid)
    (calls : List Call) (hnumber : (run memory config calls).state.lastCommandSequence = 0) :
    (supervisor (run memory config calls).state).Unheard := by
  refine run_keeps memory config
    (fun _ c => c.lastCommandSequence = 0 → (supervisor c).Unheard) ?_ ?_ calls hnumber
  · intro _
    rw [supervisor_controllerInit memory hconfig]
    exact ⟨rfl, rfl⟩
  · intro _ c x c' hbefore hanswer
    exact hanswer.unheard hbefore

end Invariant

section Reached

variable {c : Controller} {timeout number : U16} {seen : Bool} {elapsed last : U32}

/-- Before the self-test the clock can be brought anywhere. -/
theorem reaches_elapsed
    (h : c.Shows ⟨timeout, .init, 0, false, seen, elapsed, last⟩ number) (later : U32) :
    Reaches step c (·.Shows ⟨timeout, .init, 0, false, seen, later, last⟩ number) := by
  obtain ⟨hmode, hkept, _⟩ := ticks_not_expired (later - elapsed).toNat c fun k _ hexpired => by
    rw [h.mode] at hexpired
    exact Bool.false_ne_true hexpired.1
  refine ⟨List.replicate (later - elapsed).toNat .tick, ?_, hkept.trans h.number⟩
  have hclock : elapsed + BitVec.ofNat 32 (later - elapsed).toNat = later := by
    rw [BitVec.ofNat_toNat, BitVec.setWidth_eq, BitVec.add_comm, BitVec.sub_add_cancel]
  rw [hmode, h.mode, Supervisor.advanced, hclock]

/-- The start-up can have any number behind it, at any time and as long after
the last heartbeat as one likes. -/
theorem reaches_startUp
    (h : c.Shows ⟨timeout, .init, 0, false, false, 0, 0⟩ 0)
    (hunheard : number = 0 → seen = false ∧ last = 0) :
    Reaches step c (·.Shows ⟨timeout, .init, 0, false, seen, elapsed, last⟩ number) := by
  rcases eq_or_ne number 0 with hzero | hpositive
  · obtain ⟨rfl, rfl⟩ := hunheard hzero
    rw [hzero]
    exact reaches_elapsed h elapsed
  · apply (reaches_elapsed h last).trans
    intro early hearly
    have hfresh : early.lastCommandSequence < number := by
      rw [hearly.number]
      exact BitVec.lt_of_le_ne (Nat.zero_le _) hpositive.symm
    obtain ⟨hmode, hnumber⟩ := heartbeat_waiting hearly.mode hfresh
    have hbeaten : Reaches step early
        (·.Shows ⟨timeout, .init, 0, false, true, last, last⟩ number) :=
      ⟨[.heartbeat number], hmode, hnumber⟩
    apply hbeaten.trans
    intro beaten hshows
    cases seen with
    | true => exact reaches_elapsed hshows elapsed
    | false =>
        -- a recovery forgets that the heartbeat was seen, but not when
        obtain ⟨hforgot, hkept⟩ := recover_faultless (by simp) hshows.mode
        have hrecovered : Reaches step beaten
            (·.Shows ⟨timeout, .init, 0, false, false, last, last⟩ number) :=
          ⟨[.latchFault faultInterface false, .recover], hforgot, hkept.trans hshows.number⟩
        exact hrecovered.trans fun _ hagain => reaches_elapsed hagain elapsed

/-- The self-test takes a start-up to where its flags belong. -/
theorem reaches_flags {tested : Bool}
    (h : c.Shows ⟨timeout, .init, 0, false, seen, elapsed, last⟩ number) :
    Reaches step c (·.Shows ⟨timeout,
      if tested = true ∧ seen = true then .operational else .init, 0, tested, seen, elapsed, last⟩
      number) := by
  cases tested with
  | false => exact reaches_of_holds (by simpa using h)
  | true =>
      refine ⟨[.markSelfTestPassed], ?_, ?_⟩
      · apply (supervisor_markSelfTestPassed c).trans
        rw [h.mode]
        cases seen <;> rfl
      · exact (step_answers c .markSelfTestPassed).advances.trans h.number

theorem reaches_latch {s : Supervisor} (h : c.Shows s number) (fault : Fault) :
    Reaches step c (·.Shows (s.latch fault) number) := by
  refine ⟨[.latchFault fault.word fault.critical], ?_, ?_⟩
  · rw [← h.mode]
    exact congrArg supervisor (latchFault_eq_latch c fault.word fault.critical)
  · exact (step_answers c (.latchFault fault.word fault.critical)).advances.trans h.number

/-- One fault makes up the rest of a mode that the invariant allows. -/
theorem reaches_sound {s : Supervisor} (hsound : s.Sound)
    (h : c.Shows ⟨s.timeout,
      if s.selfTestPassed = true ∧ s.heartbeatSeen = true then .operational else .init, 0,
      s.selfTestPassed, s.heartbeatSeen, s.elapsedMs, s.lastHeartbeatMs⟩ number) :
    Reaches step c (·.Shows s number) := by
  obtain ⟨timeout, state, bitmap, tested, seen, elapsed, last⟩ := s
  have hready : (if tested = true ∧ seen = true then State.operational else .init) ≠ .safe := by
    split <;> simp
  have hword : (0 : U32) ||| bitmap = bitmap := BitVec.zero_or
  cases state with
  | init =>
      obtain ⟨hbits, hflags⟩ := hsound.init rfl
      simp only at hbits hflags h
      rw [if_neg hflags] at h
      rw [hbits]
      exact reaches_of_holds h
  | operational =>
      obtain ⟨htested, hseen, hbits⟩ := hsound.operational rfl
      simp only at htested hseen hbits h
      rw [if_pos ⟨htested, hseen⟩] at h
      rw [hbits]
      exact reaches_of_holds h
  | degraded =>
      have hmild : ¬Fault.Severe ⟨bitmap, false⟩ := by
        intro hsevere
        rcases hsevere with hcritical | hbits
        · exact Bool.false_ne_true hcritical
        · exact absurd (hsound.locked hbits) (by simp)
      have hlatched := reaches_latch h ⟨bitmap, false⟩
      rw [Supervisor.latch, State.latch_of_not_severe hmild hready] at hlatched
      simpa only [hword] using hlatched
  | safe =>
      have hlatched := reaches_latch h ⟨bitmap, true⟩
      rw [Supervisor.latch, State.latch_of_severe _ (.inl rfl)] at hlatched
      simpa only [hword] using hlatched

end Reached

theorem shows_controllerInit (memory : Controller) {config : Config} (hconfig : config.Valid) :
    (controllerInit memory (some config)).Shows
      ⟨config.watchdogTimeoutMs, .init, 0, false, false, 0, 0⟩ 0 where
  mode := supervisor_controllerInit memory hconfig
  number := by
    have hvalid : configIsValid (some config) = .ok true := hconfig
    rw [controllerInit, if_pos hvalid]

/-- The invariant of the mode is the strongest one. Some run leads to a mode,
with its fault bitmap, its flags, both clocks and the last number, if and only
if the invariant allows it and, without a number, no heartbeat and no time of one
is on record. -/
theorem run_reaches_iff (memory : Controller) (config : Config) (hconfig : config.Valid)
    (s : Supervisor) (number : U16) :
    (∃ calls, (run memory config calls).state.Shows s number) ↔
      s.timeout = config.watchdogTimeoutMs ∧ s.Sound ∧ (number = 0 → s.Unheard) := by
  constructor
  · intro ⟨calls, hmode, hnumber⟩
    rw [← hmode, ← hnumber]
    refine ⟨?_, run_sound memory hconfig calls, run_unheard memory hconfig calls⟩
    exact congrArg Config.watchdogTimeoutMs (run_config memory hconfig calls)
  · intro ⟨htimeout, hsound, hunheard⟩
    have hstart := shows_controllerInit memory hconfig
    rw [← htimeout] at hstart
    have hreached : Reaches step (controllerInit memory (some config)) (·.Shows s number) := by
      apply (reaches_startUp hstart hunheard).trans
      intro prepared hprepared
      apply (reaches_flags hprepared).trans
      intro flagged hflagged
      exact reaches_sound hsound hflagged
    exact hreached

/-- Operational with a heartbeat that is `2 ^ 31` ticks old. -/
theorem run_reaches_iff_stale :
    ∃ calls, (run zeroController defaultConfig calls).state.Shows
      ⟨100, .operational, 0, true, true, 0x80000000, 0⟩ 1 :=
  (run_reaches_iff zeroController defaultConfig defaultConfig_valid _ 1).mpr
    ⟨rfl, ⟨by simp, by simp, by simp⟩, by simp⟩

end Esqh
