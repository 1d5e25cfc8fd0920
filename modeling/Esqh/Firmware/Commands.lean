import Esqh.Firmware.Transitions

/-!
The command sequence number over whole runs. Heartbeats and setpoints share it,
it only grows, and recovery keeps it, so no accepted command can be replayed.
The same guard makes the number a resource: once it is used up, only a start-up
whose heartbeat has been accepted already can still complete.
-/

namespace Esqh

/-- The sequence number that an exchange consumed. A setpoint out of range
consumes its number as an accepted one does. -/
def consumedSequence (x : Exchange) : Option U16 :=
  match x.call, x.reply with
  | .heartbeat sequence, .status .ok => some sequence
  | .setpoint sequence _, .status .ok => some sequence
  | .setpoint sequence _, .status .errRange => some sequence
  | _, _ => none

/-- The sequence numbers that a history consumed, latest first. -/
def consumedSequences (history : History) : List U16 := history.filterMap consumedSequence

/-- The last consumed number grows by each number consumed, and by nothing else. -/
def AdvancesTo (before after : U16) : Option U16 → Prop
  | none => after = before
  | some sequence => before < sequence ∧ after = sequence

/-- Every answered call advances the sequence number to what its exchange
consumed. -/
theorem Answers.advances {c c' : Controller} {x : Exchange} (h : Answers c x c') :
    AdvancesTo c.lastCommandSequence c'.lastCommandSequence (consumedSequence x) := by
  cases h with
  | heartbeatAccepted hfresh => exact ⟨hfresh, rfl⟩
  | setpointOutOfRange _ hfresh _ => exact ⟨hfresh, rfl⟩
  | setpointAccepted _ hfresh _ _ => exact ⟨hfresh, rfl⟩
  | _ => rfl

section Calls

variable (c : Controller)

/-- What a replayed command must not touch. -/
structure Controller.SameCommandState (c c' : Controller) : Prop where
  setpoint : c'.setpoint = c.setpoint
  lastHeartbeatMs : c'.lastHeartbeatMs = c.lastHeartbeatMs
  heartbeatSeen : c'.heartbeatSeen = c.heartbeatSeen
  selfTestPassed : c'.selfTestPassed = c.selfTestPassed
  lastCommandSequence : c'.lastCommandSequence = c.lastCommandSequence

theorem sameCommandState_latchFault (fault : U32) (critical : Bool) :
    c.SameCommandState (latchFault c fault critical) := by
  rw [latchFault_eq]
  exact ⟨rfl, rfl, rfl, rfl, rfl⟩

/-- A heartbeat or a setpoint with the number is refused, without a trace in
the command state. -/
def Refuses (sequence : U16) : Prop :=
  ((heartbeat c sequence).1 ≠ .ok ∧ c.SameCommandState (heartbeat c sequence).2) ∧
    ∀ value, (setpoint c sequence value).1 ≠ .ok ∧
      c.SameCommandState (setpoint c sequence value).2

theorem refuses_of_le {sequence : U16} (hstale : sequence ≤ c.lastCommandSequence) :
    Refuses c sequence := by
  constructor
  · rcases heartbeat_cases c sequence with ⟨h, _⟩ | ⟨_, hfresh⟩
    · rw [h]
      exact ⟨by simp, sameCommandState_latchFault c faultSequence false⟩
    · exact absurd hstale (BitVec.not_le.mpr hfresh)
  · intro value
    rcases setpoint_cases c sequence value with h | ⟨h, _⟩ | ⟨_, hfresh⟩ | ⟨_, hfresh⟩
    · rw [h]
      exact ⟨by simp, ⟨rfl, rfl, rfl, rfl, rfl⟩⟩
    · rw [h]
      exact ⟨by simp, sameCommandState_latchFault c faultSequence false⟩
    · exact absurd hstale (BitVec.not_le.mpr hfresh)
    · exact absurd hstale (BitVec.not_le.mpr hfresh)

end Calls

/-- The consumed numbers increase from zero up to the last one. -/
structure Increasing (history : History) (last : U16) : Prop where
  sorted : (consumedSequences history).Pairwise (fun later earlier => earlier < later)
  positive : ∀ sequence ∈ consumedSequences history, 0 < sequence
  le_last : ∀ sequence ∈ consumedSequences history, sequence ≤ last

theorem Increasing.step {history : History} {last last' : U16} (h : Increasing history last)
    {x : Exchange} (hstep : AdvancesTo last last' (consumedSequence x)) :
    Increasing (x :: history) last' := by
  cases hconsumed : consumedSequence x with
  | none =>
      have heq : consumedSequences (x :: history) = consumedSequences history := by
        simp [consumedSequences, hconsumed]
      rw [hconsumed] at hstep
      obtain rfl : last' = last := hstep
      exact ⟨heq ▸ h.sorted, heq ▸ h.positive, heq ▸ h.le_last⟩
  | some sequence =>
      have heq : consumedSequences (x :: history) = sequence :: consumedSequences history := by
        simp [consumedSequences, hconsumed]
      rw [hconsumed] at hstep
      obtain ⟨hfresh, rfl⟩ : last < sequence ∧ last' = sequence := hstep
      have hbelow : ∀ earlier ∈ consumedSequences history, earlier < last' :=
        fun earlier hmem => Nat.lt_of_le_of_lt (h.le_last earlier hmem) hfresh
      refine ⟨?_, ?_, ?_⟩
      · rw [heq, List.pairwise_cons]
        exact ⟨hbelow, h.sorted⟩
      · rw [heq, List.forall_mem_cons]
        exact ⟨Nat.lt_of_le_of_lt (Nat.zero_le last.toNat) hfresh, h.positive⟩
      · rw [heq, List.forall_mem_cons]
        exact ⟨BitVec.le_refl _, fun earlier hmem => BitVec.le_of_lt (hbelow earlier hmem)⟩

theorem run_increasing (memory : Controller) (config : Config) (calls : List Call) :
    Increasing (run memory config calls).history
      (run memory config calls).state.lastCommandSequence := by
  refine run_keeps memory config (fun history c => Increasing history c.lastCommandSequence)
    ?_ ?_ calls
  · exact ⟨.nil, by simp [consumedSequences], by simp [consumedSequences]⟩
  · intro _ _ _ _ h hanswer
    exact h.step hanswer.advances

/-- The numbers of the accepted commands of a run increase from call to call
and are never zero, and whatever command carries one of them again is refused
from then on, without a trace in the command state. -/
theorem run_replay_refused (memory : Controller) (config : Config) (calls : List Call) :
    let r := run memory config calls
    (consumedSequences r.history).Pairwise (fun later earlier => earlier < later) ∧
    (∀ sequence ∈ consumedSequences r.history, sequence ≠ 0) ∧
    (∀ sequence ∈ consumedSequences r.history, Refuses r.state sequence) := by
  intro r
  have h : Increasing r.history r.state.lastCommandSequence := run_increasing memory config calls
  refine ⟨h.sorted, ?_, ?_⟩
  · rintro sequence hmem rfl
    exact BitVec.lt_irrefl 0 (h.positive 0 hmem)
  · intro sequence hmem
    exact refuses_of_le r.state (h.le_last sequence hmem)

/-- A heartbeat is refused again after the recovery from its own replay. -/
theorem run_replay_refused_recovered :
    Refuses (run zeroController defaultConfig [.heartbeat 7, .heartbeat 7, .recover]).state 7 :=
  (run_replay_refused zeroController defaultConfig
    [.heartbeat 7, .heartbeat 7, .recover]).2.2 7 (by decide)

/-! Bringing a controller back. -/

/-- The calls of the documented way back: recovery, self-test and heartbeat. -/
def Call.Restarts : Call → Prop
  | .recover => True
  | .markSelfTestPassed => True
  | .heartbeat _ => True
  | _ => False

/-- Some further calls of the way back make the controller operational. -/
def Restartable (memory : Controller) (config : Config) (calls : List Call) : Prop :=
  ∃ more : List Call, (∀ call ∈ more, call.Restarts) ∧
    (run memory config (calls ++ more)).state.state = .operational

/-- The controller is operational, has a sequence number left, or has accepted
the heartbeat of its start-up and holds no fault. -/
def Controller.CanRestart (c : Controller) : Prop :=
  c.state = .operational ∨ c.lastCommandSequence < 0xffff ∨
    (c.faultBitmap = 0 ∧ c.heartbeatSeen = true)

section Restart

variable {c : Controller}

theorem heartbeat_of_used_up (h : ¬c.lastCommandSequence < 0xffff) (sequence : U16) :
    heartbeat c sequence = (.errSequence, latchFault c faultSequence false) := by
  rcases heartbeat_cases c sequence with ⟨heq, _⟩ | ⟨_, hfresh⟩
  · exact heq
  · have hmax : sequence.toNat ≤ 0xffff := Nat.le_of_lt_succ sequence.isLt
    exact absurd (Nat.lt_of_lt_of_le hfresh hmax) h

/-- Without a way to restart, the calls of the way back do not open one: every
heartbeat latches another fault, and recovery forgets the accepted heartbeat. -/
theorem not_canRestart_step (h : ¬c.CanRestart) {call : Call} (hcall : call.Restarts) :
    ¬(step c call).2.CanRestart := by
  obtain ⟨hstate, hrest⟩ := not_or.mp h
  obtain ⟨husedUp, hready⟩ := not_or.mp hrest
  cases call with
  | markSelfTestPassed =>
      simp only [step]
      by_cases hsafe : c.state = .safe
      · rw [markSelfTestPassed_of_safe c hsafe]
        exact h
      · rw [markSelfTestPassed_of_not_safe c hsafe, if_neg (fun hboth => hready hboth.symm)]
        exact h
  | heartbeat sequence =>
      simp only [step, heartbeat_of_used_up husedUp, latchFault_eq]
      rintro (hoperational | hleft | ⟨hbits, _⟩)
      · simp only [State.latch] at hoperational
        split at hoperational <;> cases hoperational
      · exact husedUp hleft
      · exact absurd (BitVec.or_eq_zero_iff.mp hbits).2 (by decide)
  | recover =>
      rcases recover_cases c with ⟨heq, _⟩ | ⟨heq, _⟩
      · simp only [step, heq]
        exact h
      · simp only [step, heq]
        rintro (hoperational | hleft | ⟨_, hseen⟩)
        · cases hoperational
        · exact husedUp hleft
        · cases hseen
  | _ => exact absurd hcall id

theorem heartbeat_of_ready (hsafe : c.state ≠ .safe) (htested : c.selfTestPassed = true)
    (hbits : c.faultBitmap = 0) (hleft : c.lastCommandSequence < 0xffff) :
    (heartbeat c 0xffff).2.state = .operational := by
  rcases heartbeat_cases c 0xffff with ⟨_, hstale⟩ | ⟨h, _⟩
  · rcases hstale with hzero | hstale
    · cases hzero
    · exact absurd hstale (BitVec.not_le.mpr hleft)
  · rw [h]
    exact if_pos ⟨hsafe, htested, hbits⟩

/-- A fault outside the safe state is a recoverable one of a degraded
controller. -/
theorem recoverable_of_fault (hsound : (supervisor c).Sound) (hsafe : c.state ≠ .safe)
    (hbits : c.faultBitmap ≠ 0) : c.Recoverable := by
  refine ⟨?_, hbits, ?_⟩
  · cases hstate : c.state with
    | init => exact absurd (hsound.init hstate).1 hbits
    | operational => exact absurd (hsound.operational hstate).2.2 hbits
    | degraded => rfl
    | safe => exact absurd hstate hsafe
  · by_contra hsevere
    exact hsafe (hsound.locked hsevere)

/-- Self-test and a fresh heartbeat start a controller that holds no fault. -/
theorem operational_of_start (hsafe : c.state ≠ .safe) (hbits : c.faultBitmap = 0)
    (hleft : c.lastCommandSequence < 0xffff) :
    (heartbeat (markSelfTestPassed c) 0xffff).2.state = .operational := by
  rw [markSelfTestPassed_of_not_safe c hsafe]
  refine heartbeat_of_ready ?_ rfl hbits hleft
  by_cases hready : c.heartbeatSeen = true ∧ c.faultBitmap = 0
  · simp only [if_pos hready]
    simp
  · simp only [if_neg hready]
    exact hsafe

end Restart

/-- Only a controller that can restart is ever brought back. -/
theorem canRestart_of_restartable {memory : Controller} {config : Config} {calls : List Call}
    (h : Restartable memory config calls) : (run memory config calls).state.CanRestart := by
  obtain ⟨more, hmore, hoperational⟩ := h
  by_contra hstranded
  have hkept : ¬(run memory config (calls ++ more)).state.CanRestart := by
    clear hoperational
    induction more using List.reverseRecOn with
    | nil => simpa using hstranded
    | append_singleton more call ih =>
        rw [← List.append_assoc, run, Machine.run_snoc]
        exact not_canRestart_step (ih fun call' hmem => hmore call' (by simp [hmem]))
          (hmore call (by simp))
  exact hkept (.inl hoperational)

/-- A controller that is not in the safe state can be brought back exactly if
it is operational, has a sequence number left, or needs no further heartbeat. -/
theorem run_restartable_iff (memory : Controller) (config : Config) (hconfig : config.Valid)
    (calls : List Call) (hsafe : (run memory config calls).state.state ≠ .safe) :
    Restartable memory config calls ↔ (run memory config calls).state.CanRestart := by
  have hsound := run_sound memory hconfig calls
  have happend (more : List Call) :
      (run memory config (calls ++ more)).state =
        (more.foldl (Machine.Run.next step) (run memory config calls)).state := by
    rw [run, Machine.run_append]
    rfl
  refine ⟨canRestart_of_restartable, ?_⟩
  set c := (run memory config calls).state
  rintro (hoperational | hleft | ⟨hbits, hseen⟩)
  · exact ⟨[], by simp, by simpa using hoperational⟩
  · by_cases hbits : c.faultBitmap = 0
    · refine ⟨[.markSelfTestPassed, .heartbeat 0xffff], by simp [Call.Restarts], ?_⟩
      rw [happend]
      exact operational_of_start hsafe hbits hleft
    · refine ⟨[.recover, .markSelfTestPassed, .heartbeat 0xffff], by simp [Call.Restarts], ?_⟩
      rw [happend]
      rcases recover_cases c with ⟨_, hnot⟩ | ⟨heq, _⟩
      · exact absurd (recoverable_of_fault hsound hsafe hbits) hnot
      · have hstart : (heartbeat (markSelfTestPassed (recover c).2) 0xffff).2.state =
            .operational := by
          rw [heq]
          exact operational_of_start (by simp) rfl hleft
        exact hstart
  · refine ⟨[.markSelfTestPassed], by simp [Call.Restarts], ?_⟩
    rw [happend]
    have hmarked : (markSelfTestPassed c).state = .operational := by
      rw [markSelfTestPassed_of_not_safe c hsafe]
      exact if_pos ⟨hseen, hbits⟩
    exact hmarked

/-- A recoverable fault early in the service life. -/
theorem run_restartable_iff_degraded :
    Restartable zeroController defaultConfig [.heartbeat 1, .latchFault faultInterface false] :=
  (run_restartable_iff zeroController defaultConfig defaultConfig_valid _ (by decide)).mpr
    (.inr (.inl (by decide)))

/-- After a heartbeat with the last sequence number, one replay of it strands
the controller: it is degraded, and neither recovery nor self-test nor any
heartbeat makes it operational again. -/
theorem run_stranded :
    defaultConfig.Valid ∧
      (run zeroController defaultConfig [.heartbeat 0xffff, .heartbeat 0xffff]).state.state ≠
        .safe ∧
      ¬Restartable zeroController defaultConfig [.heartbeat 0xffff, .heartbeat 0xffff] := by
  refine ⟨defaultConfig_valid, by decide, ?_⟩
  intro h
  rcases canRestart_of_restartable h with hoperational | hleft | ⟨hbits, _⟩
  · exact absurd hoperational (by decide)
  · exact absurd hleft (by decide)
  · exact absurd hbits (by decide)

end Esqh
