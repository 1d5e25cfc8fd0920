import Esqh.Firmware.ModeHistory

/-!
The fault bitmap over whole runs: it is the union of the words of the faults
since the last accepted recovery, no bit more and no bit less.
-/

namespace Esqh

/-- The bits of some faults together. -/
def unionOfWords : List Fault → U32
  | [] => 0
  | fault :: faults => fault.word ||| unionOfWords faults

namespace Supervisor

variable {timeout : U16} {events : List ModeEvent} {s s' : Supervisor} {event : ModeEvent}

theorem faultBitmap_passSelfTest : s.passSelfTest.faultBitmap = s.faultBitmap := by
  rcases s.passSelfTest_cases with ⟨h, _⟩ | ⟨h, _⟩ | ⟨h, _⟩ <;> rw [h]

/-- Latching adds the fault's word. -/
theorem faultBitmap_latch {faults : List Fault} (h : s.faultBitmap = unionOfWords faults)
    (fault : Fault) : (s.latch fault).faultBitmap = unionOfWords (fault :: faults) := by
  have hlatch : (s.latch fault).faultBitmap = s.faultBitmap ||| fault.word := rfl
  rw [hlatch, h, BitVec.or_comm]
  rfl

/-- One event keeps the bitmap the union of the faults since the last recovery. -/
theorem Step.faultBitmap (htracks : s.Tracks timeout events)
    (h : s.faultBitmap = unionOfWords (faultsSinceRecover timeout events))
    (hstep : s.Step event s') :
    s'.faultBitmap = unionOfWords (faultsSinceRecover timeout (event :: events)) := by
  cases hstep with
  | selfTestPassed =>
      rw [faultBitmap_passSelfTest]
      exact h
  | heartbeatAccepted => exact h
  | fault fault => exact faultBitmap_latch h fault
  | recoverAccepted => rfl
  | tick hexpired =>
      have hnone : faultAt timeout (selfTested timeout events) (heartbeatAge events) .tick = none :=
        if_neg (fun hlate => hexpired (htracks.expired_iff.mpr hlate))
      rw [faultsSinceRecover_cons (by simp), hnone]
      exact h
  | expire hexpired =>
      have hsome : faultAt timeout (selfTested timeout events) (heartbeatAge events) .tick =
          some watchdogFault := if_pos (htracks.expired_iff.mp hexpired)
      have hadvanced : s.advance.faultBitmap = s.faultBitmap := rfl
      rw [faultsSinceRecover_cons (by simp), hsome]
      exact faultBitmap_latch (hadvanced.trans h) watchdogFault
  | other => exact h

end Supervisor

theorem run_faultBitmap (memory : Controller) {config : Config} (hconfig : config.Valid)
    (calls : List Call) :
    (run memory config calls).state.faultBitmap =
      unionOfWords (faultsSinceRecover config.watchdogTimeoutMs
        (modeEvents (run memory config calls).history)) := by
  -- whether a tick trips is read off the clocks, so the two facts go together
  have hboth := (run_supervisor memory hconfig calls).invariant
    (fun events s => s.Tracks config.watchdogTimeoutMs events ∧
      s.faultBitmap = unionOfWords (faultsSinceRecover config.watchdogTimeoutMs events))
    ⟨Supervisor.tracks_start _, rfl⟩ (by
      intro events s event s' h hstep
      exact ⟨h.1.step hstep, Supervisor.Step.faultBitmap h.1 h.2 hstep⟩)
  exact hboth.2

/-- The fault bitmap of every run is the union of the words of the faults since
the last accepted recovery, where a tick counts as the watchdog's fault exactly
if it trips. An accepted recovery clears the bitmap and resets the mode, and a
refused one changes nothing. -/
theorem run_fault_memory (memory : Controller) (config : Config) (hconfig : config.Valid)
    (calls : List Call) :
    let c := (run memory config calls).state
    let events := modeEvents (run memory config calls).history
    c.faultBitmap = unionOfWords (faultsSinceRecover config.watchdogTimeoutMs events) ∧
    (faultAt config.watchdogTimeoutMs (selfTested config.watchdogTimeoutMs events)
        (heartbeatAge events) .tick =
      if c.selfTestPassed = true ∧
          c.elapsedMs + 1 - c.lastHeartbeatMs > c.config.watchdogTimeoutMs.setWidth 32 then
        some ⟨faultWatchdog, true⟩
      else none) ∧
    ((recover c).1 = .ok →
      (recover c).2 =
        { c with
          faultBitmap := 0
          state := .init
          selfTestPassed := false
          heartbeatSeen := false }) ∧
    ((recover c).1 ≠ .ok → (recover c).2 = c) := by
  intro c events
  refine ⟨run_faultBitmap memory hconfig calls, ?_, ?_, ?_⟩
  · have htrips : c.Expired ↔ selfTested config.watchdogTimeoutMs events = true ∧
        config.watchdogTimeoutMs.toNat < (heartbeatAge events + 1) % 2 ^ 32 :=
      (run_tracks memory hconfig calls).expired_iff
    exact if_congr htrips.symm rfl rfl
  · intro hok
    rcases recover_cases c with ⟨h, _⟩ | ⟨h, _⟩
    · rw [h] at hok
      cases hok
    · rw [h]
  · intro herror
    rcases recover_cases c with ⟨h, _⟩ | ⟨h, _⟩
    · rw [h]
    · rw [h] at herror
      exact absurd rfl herror

/-- After a recovery only the later fault is remembered. -/
theorem run_fault_memory_recovered :
    (run zeroController defaultConfig
      [.spiWrite 16 0, .recover, .heartbeat 0]).state.faultBitmap = faultSequence := by
  rw [(run_fault_memory zeroController defaultConfig defaultConfig_valid _).1]
  decide

end Esqh
