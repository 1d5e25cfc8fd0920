import Esqh.Firmware.Answers

/-!
Faults and time in any order. Ticks, latched faults and refused intakes add to
the controller in ways that commute, so a list of them ends in the same
controller however it is arranged.
-/

namespace Esqh

/-- The calls that only let time pass or report something wrong, as seen from
a controller. -/
def Controller.Disturbs (c : Controller) : Call → Prop
  | .tick => True
  | .latchFault _ _ => True
  | .spiWrite address _ => spiRegisterCount ≤ address.toNat
  | .receive frame => (receive c frame).1 ≠ .ok
  | _ => False

/-- What such a call amounts to. -/
inductive Disturbance where
  | nothing
  | elapsed
  | latched (fault : Fault)
  | rejected (fault : Fault)

def Disturbance.act : Disturbance → Controller → Controller
  | .nothing, c => c
  | .elapsed, c => tick c
  | .latched fault, c => c.latch fault
  | .rejected fault, c => c.countRejected.latch fault

/-- What a call amounts to from a controller, or from any other that has the
same configuration and queue. -/
def Controller.disturbance (c : Controller) : Call → Disturbance
  | .tick => .elapsed
  | .latchFault fault critical => .latched ⟨fault, critical⟩
  | .spiWrite _ _ => .latched ⟨faultInterface, false⟩
  | .receive frame =>
    match (receive c frame).1 with
    | .errArgument => .nothing
    | .errFull => .rejected ⟨faultQueueOverflow, false⟩
    | _ => .rejected ⟨faultInterface, false⟩
  | _ => .nothing

section Commute

variable (c : Controller)

theorem State.latch_comm (state : State) (first second : Fault) :
    (state.latch first).latch second = (state.latch second).latch first := by
  unfold State.latch
  split_ifs <;> simp_all

theorem Controller.latch_comm (first second : Fault) :
    (c.latch first).latch second = (c.latch second).latch first := by
  simp only [Controller.latch, BitVec.or_assoc, State.latch_comm c.state first second,
    BitVec.or_comm first.word]

/-- The watchdog reads nothing that a fault changes. -/
theorem tick_latch (fault : Fault) : tick (c.latch fault) = (tick c).latch fault := by
  by_cases h : c.Expired
  · have hlatched : (c.latch fault).Expired := h
    rw [tick_of_expired c h, tick_of_expired _ hlatched, latchFault_eq_latch,
      latchFault_eq_latch, Controller.latch_comm]
    rfl
  · have hlatched : ¬(c.latch fault).Expired := h
    rw [tick_of_not_expired c h, tick_of_not_expired _ hlatched]
    rfl

theorem tick_countRejected : tick c.countRejected = (tick c).countRejected := by
  by_cases h : c.Expired
  · have hcounted : c.countRejected.Expired := h
    rw [tick_of_expired c h, tick_of_expired _ hcounted, latchFault_eq_latch,
      latchFault_eq_latch]
    rfl
  · have hcounted : ¬c.countRejected.Expired := h
    rw [tick_of_not_expired c h, tick_of_not_expired _ hcounted]
    rfl

theorem Disturbance.act_comm (first second : Disturbance) :
    second.act (first.act c) = first.act (second.act c) := by
  cases first with
  | nothing => rfl
  | elapsed =>
      cases second with
      | nothing => rfl
      | elapsed => rfl
      | latched fault => exact (tick_latch c fault).symm
      | rejected fault =>
          simp only [act]
          rw [tick_latch, tick_countRejected]
  | latched fault =>
      cases second with
      | nothing => rfl
      | elapsed => exact tick_latch c fault
      | latched other => exact c.latch_comm fault other
      | rejected other => exact c.countRejected.latch_comm fault other
  | rejected fault =>
      cases second with
      | nothing => rfl
      | elapsed =>
          simp only [act]
          rw [tick_latch, tick_countRejected]
      | latched other => exact c.countRejected.latch_comm fault other
      | rejected other => exact c.countRejected.countRejected.latch_comm fault other

end Commute

/-- What decides whether a frame is rejected. -/
def Controller.SameIntake (c c' : Controller) : Prop :=
  c'.config = c.config ∧ c'.queue = c.queue

theorem sameIntake_tick (c : Controller) : c.SameIntake (tick c) := by
  by_cases h : c.Expired
  · rw [tick_of_expired c h, latchFault_eq_latch]
    exact ⟨rfl, rfl⟩
  · rw [tick_of_not_expired c h]
    exact ⟨rfl, rfl⟩

theorem Disturbance.sameIntake (d : Disturbance) {c c' : Controller} (h : c.SameIntake c') :
    c.SameIntake (d.act c') := by
  cases d with
  | nothing => exact h
  | elapsed =>
      obtain ⟨hconfig, hqueue⟩ := sameIntake_tick c'
      exact ⟨hconfig.trans h.1, hqueue.trans h.2⟩
  | latched fault => exact h
  | rejected fault => exact h

/-- A rejected frame leaves its fault behind, and nothing else. -/
theorem receive_of_rejected (c : Controller) (frame : Ptr Frame)
    (h : (receive c frame).1 ≠ .ok) :
    (receive c frame).2 = (c.disturbance (.receive frame)).act c := by
  rcases frame with _ | frame
  · rfl
  rcases receive_cases c frame with ⟨status, hstatus, heq⟩ | heq | heq
  · simp only [Controller.disturbance, heq, rejectFrame_eq]
    rcases hstatus with rfl | rfl <;> rfl
  · simp only [Controller.disturbance, heq, rejectFrame_eq]
    rfl
  · rw [heq] at h
    exact absurd rfl h

/-- The reason for a rejection is a matter of the configuration and the queue. -/
theorem receive_status_of_sameIntake {c c' : Controller} (h : c.SameIntake c')
    (frame : Ptr Frame) : (receive c' frame).1 = (receive c frame).1 := by
  rcases frame with _ | frame
  · rfl
  simp only [receive, h.1, h.2]
  split_ifs
  case neg => split <;> rfl
  all_goals rfl

theorem disturbance_of_sameIntake {c c' : Controller} (h : c.SameIntake c')
    (frame : Ptr Frame) :
    c'.disturbance (.receive frame) = c.disturbance (.receive frame) := by
  simp only [Controller.disturbance, receive_status_of_sameIntake h frame]

/-- A disturbing call has the reply and the effect that it had at first. -/
theorem step_of_sameIntake {c c' : Controller} (h : c.SameIntake c') {call : Call}
    (hcall : c.Disturbs call) :
    step c' call = ((step c call).1, (c.disturbance call).act c') := by
  cases call with
  | tick => rfl
  | latchFault fault critical =>
      simp only [step, latchFault_eq_latch]
      rfl
  | spiWrite address value =>
      have hwrite (c : Controller) :
          spiWrite c address value = (.errRange, latchFault c faultInterface false) :=
        if_pos hcall
      simp only [step, hwrite, latchFault_eq_latch]
      rfl
  | receive frame =>
      have hstatus := receive_status_of_sameIntake h frame
      have hrejected : (receive c' frame).1 ≠ .ok := hstatus ▸ hcall
      have heffect := receive_of_rejected c' frame hrejected
      rw [disturbance_of_sameIntake h] at heffect
      simp only [step, hstatus, heffect]
  | _ => exact absurd hcall id

/-- Ticks, latched faults, register writes out of range and rejected frames may
be made in any order: the controller ends up the same, and each call is
answered as it would have been at the start. -/
theorem disturbances_commute (c : Controller) (calls other : List Call)
    (hcalls : ∀ call ∈ calls, c.Disturbs call) (hperm : calls.Perm other) :
    (Machine.run step c other).state = (Machine.run step c calls).state ∧
      ∀ x ∈ (Machine.run step c other).history, x.reply = (step c x.call).1 := by
  refine Machine.run_perm step c.SameIntake (fun call => (step c call).1)
    (fun call => (c.disturbance call).act) ⟨rfl, rfl⟩ ?_ ?_ hperm
  · intro c' h call hmem
    exact ⟨step_of_sameIntake h (hcalls call hmem), (c.disturbance call).sameIntake h⟩
  · intro first _ second _ c'
    exact Disturbance.act_comm c' _ _

/-- A tick that trips the watchdog, before or after a write out of range. -/
theorem disturbances_commute_watchdog :
    (Machine.run step { zeroController with selfTestPassed := true, heartbeatSeen := true }
        [.spiWrite 16 0, .tick]).state =
      (Machine.run step { zeroController with selfTestPassed := true, heartbeatSeen := true }
        [.tick, .spiWrite 16 0]).state :=
  (disturbances_commute _ [.tick, .spiWrite 16 0] [.spiWrite 16 0, .tick]
    (by
      intro call hmem
      rcases List.mem_cons.mp hmem with rfl | hmem
      · trivial
      · rw [List.mem_singleton.mp hmem]
        exact Nat.le_refl 16)
    (.swap _ _ _)).1

end Esqh
