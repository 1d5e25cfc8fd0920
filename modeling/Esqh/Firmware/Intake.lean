import Esqh.Firmware.Fifo
import Esqh.Firmware.Answers

/-!
The frame intake over whole runs: every frame that a receive accepted is either
popped or still queued, in order, and the counters count what happened.
-/

namespace Esqh

/-- What an answered call means to the intake. -/
inductive IntakeEvent where
  | accepted (frame : Frame)
  | rejected
  | registerWritten
  | popped (frame : Frame)
  | other

/-- The event that an exchange reports. A receive of a null pointer is no
intake of a frame. -/
def intakeEvent (x : Exchange) : IntakeEvent :=
  match x.call, x.reply with
  | .receive (some frame), .status .ok => .accepted frame
  | .receive (some _), .status _ => .rejected
  | .spiWrite _ _, .status .ok => .registerWritten
  | .queuePop _, .popped .ok (some frame) => .popped frame
  | _, _ => .other

/-- The intake events of a history, latest first. -/
def intakeEvents (history : History) : List IntakeEvent := history.map intakeEvent

/-- The frames whose receive was accepted, oldest first. -/
def acceptedFrames : List IntakeEvent → List Frame
  | [] => []
  | .accepted frame :: earlier => acceptedFrames earlier ++ [frame]
  | _ :: earlier => acceptedFrames earlier

/-- The frames that were popped, oldest first. -/
def poppedFrames : List IntakeEvent → List Frame
  | [] => []
  | .popped frame :: earlier => poppedFrames earlier ++ [frame]
  | _ :: earlier => poppedFrames earlier

/-- The number of accepted receives of an interface. -/
def acceptedOf (interfaceType : Int) (events : List IntakeEvent) : Nat :=
  (acceptedFrames events).countP (fun frame => frame.interfaceType = interfaceType)

/-- The number of receives of a frame that returned an error. -/
def rejectedReceives : List IntakeEvent → Nat
  | [] => 0
  | .rejected :: earlier => rejectedReceives earlier + 1
  | _ :: earlier => rejectedReceives earlier

/-- The number of register writes that succeeded. -/
def registerWrites : List IntakeEvent → Nat
  | [] => 0
  | .registerWritten :: earlier => registerWrites earlier + 1
  | _ :: earlier => registerWrites earlier

/-- The controller's counters after some events: exact counts modulo `2 ^ 32`. -/
def countersOf (events : List IntakeEvent) : InterfaceCounters :=
  { uartAccepted := BitVec.ofNat 32 (acceptedOf interfaceUart events)
    spiAccepted := BitVec.ofNat 32 (acceptedOf interfaceSpi events + registerWrites events)
    canAccepted := BitVec.ofNat 32 (acceptedOf interfaceCan events)
    ethernetAccepted := BitVec.ofNat 32 (acceptedOf interfaceEthernet events)
    rejected := BitVec.ofNat 32 (rejectedReceives events) }

/-- The part of the controller that the intake reads and writes. -/
structure Intake where
  config : Config
  queue : FrameQueue
  counters : InterfaceCounters

def intake (c : Controller) : Intake := ⟨c.config, c.queue, c.counters⟩

namespace Intake

variable (s : Intake)

def reject : Intake :=
  { s with counters := { s.counters with rejected := s.counters.rejected + 1 } }

/-- One event of the intake. -/
inductive Step : Intake → IntakeEvent → Intake → Prop
  | accepted {s : Intake} {frame : Frame} (hadmits : s.config.Admits frame)
      (hspace : s.queue.count.toNat < frameQueueCapacity) :
      Step s (.accepted frame)
        { s with
          queue := (queuePush s.queue (some frame)).2
          counters := countAccepted s.counters frame.interfaceType }
  | rejected {s : Intake} : Step s .rejected s.reject
  | registerWritten {s : Intake} :
      Step s .registerWritten
        { s with counters := { s.counters with spiAccepted := s.counters.spiAccepted + 1 } }
  | popped {s : Intake} {destination frame : Frame} (hne : s.queue.count ≠ 0)
      (hframe : (queuePop s.queue (some destination)).2.2 = some frame) :
      Step s (.popped frame) { s with queue := (queuePop s.queue (some destination)).2.1 }
  | other {s : Intake} : Step s .other s

end Intake

/-- Every way a call ends is a transition of the intake, the one that the
exchange reports. -/
theorem Answers.intake_step {c c' : Controller} {x : Exchange} (h : Answers c x c') :
    (intake c).Step (intakeEvent x) (intake c') := by
  cases h with
  | frameAccepted hadmits hspace => exact .accepted hadmits hspace
  | frameInvalid _ | interfaceDisabled _ _ | queueFull _ _ => exact .rejected
  | registerWritten _ => exact .registerWritten
  | framePopped hne hframe => exact .popped hne hframe
  | _ => exact .other

/-- Every run reads as a trace of the intake. -/
theorem run_intake (memory : Controller) (config : Config) (calls : List Call) :
    Machine.Trace Intake.Step (intake (controllerInit memory (some config)))
      (intakeEvents (run memory config calls).history) (intake (run memory config calls).state) :=
  Machine.run_refines step _ Intake.Step intake intakeEvent
    (fun c call => (step_answers c call).intake_step) calls

namespace Intake

/-- The intake holds what the events say: popped and queued frames together
are the accepted ones, each was admitted, and the counters have counted. -/
structure Conserves (config : Config) (events : List IntakeEvent) (s : Intake) : Prop where
  unchanged : s.config = config
  queue : ∃ ring, s.queue.Represents ring ∧
    poppedFrames events ++ ring.contents = acceptedFrames events
  admitted : ∀ frame ∈ acceptedFrames events, config.Admits frame
  counters : s.counters = countersOf events

theorem conserves_controllerInit (memory : Controller) {config : Config} (h : config.Valid) :
    (intake (controllerInit memory (some config))).Conserves config [] := by
  have hvalid : configIsValid (some config) = .ok true := h
  simp only [controllerInit, if_pos hvalid]
  exact ⟨rfl, ⟨_, queueInit_represents memory.queue, rfl⟩, by simp [acceptedFrames], rfl⟩

variable {events : List IntakeEvent} {s s' : Intake} {event : IntakeEvent} {config : Config}

theorem ofNat_add_one (n : Nat) : BitVec.ofNat 32 (n + 1) = BitVec.ofNat 32 n + 1 :=
  BitVec.ofNat_add n 1

theorem interfaceType_of_admits {frame : Frame} (h : config.Admits frame) :
    frame.interfaceType = interfaceUart ∨ frame.interfaceType = interfaceSpi ∨
      frame.interfaceType = interfaceCan ∨ frame.interfaceType = interfaceEthernet := by
  obtain ⟨⟨hlow, hhigh⟩, _⟩ := h
  simp only [interfaceUart, interfaceSpi, interfaceCan, interfaceEthernet] at *
  omega

theorem acceptedOf_accepted (interfaceType : Int) (frame : Frame) :
    acceptedOf interfaceType (.accepted frame :: events) =
      acceptedOf interfaceType events + if frame.interfaceType = interfaceType then 1 else 0 := by
  simp [acceptedOf, acceptedFrames, List.countP_append, List.countP_cons]

/-- Counting an accepted frame adds one to its interface's counter. -/
theorem countAccepted_countersOf {frame : Frame} (h : config.Admits frame) :
    countAccepted (countersOf events) frame.interfaceType =
      countersOf (.accepted frame :: events) := by
  have hspi := Nat.add_right_comm (acceptedOf interfaceSpi events) 1 (registerWrites events)
  rcases interfaceType_of_admits h with heq | heq | heq | heq <;>
    simp only [countAccepted, countersOf, acceptedOf_accepted, registerWrites, rejectedReceives,
      heq, interfaceUart, interfaceSpi, interfaceCan, interfaceEthernet] at hspi ⊢ <;>
    simp [hspi, BitVec.ofNat_add]

theorem Conserves.step (h : s.Conserves config events) (hstep : s.Step event s') :
    s'.Conserves config (event :: events) := by
  obtain ⟨ring, hring, hconserved⟩ := h.queue
  cases hstep with
  | @accepted frame hadmits hspace =>
      rw [h.unchanged] at hadmits
      rw [hring.count] at hspace
      obtain ⟨_, hpush⟩ := queuePush_represents hring hspace frame
      refine ⟨h.unchanged, ⟨_, hpush, ?_⟩, ?_, ?_⟩
      · rw [RingBuffer.contents_push, ← List.append_assoc]
        exact congrArg (· ++ [frame]) hconserved
      · intro frame' hmem
        rcases List.mem_append.mp hmem with hold | hnew
        · exact h.admitted frame' hold
        · rw [List.mem_singleton.mp hnew]
          exact hadmits
      · rw [← countAccepted_countersOf hadmits, ← h.counters]
  | rejected =>
      refine ⟨h.unchanged, h.queue, h.admitted, ?_⟩
      simp only [reject, h.counters, countersOf, acceptedOf, acceptedFrames, registerWrites,
        rejectedReceives, ofNat_add_one]
  | registerWritten =>
      refine ⟨h.unchanged, h.queue, h.admitted, ?_⟩
      simp only [h.counters, countersOf, acceptedOf, acceptedFrames, registerWrites,
        rejectedReceives, ← Nat.add_assoc, ofNat_add_one]
  | @popped destination frame hne hframe =>
      have hpositive : 0 < ring.count := by
        rw [← hring.count]
        exact Nat.pos_of_ne_zero (fun hzero => hne (BitVec.eq_of_toNat_eq hzero))
      obtain ⟨_, hpop, hfront⟩ := queuePop_represents hring hpositive destination
      rw [hframe] at hfront
      refine ⟨h.unchanged, ⟨_, hpop, ?_⟩, h.admitted, h.counters⟩
      rw [ring.contents_pop hpositive, ← Option.some.inj hfront] at hconserved
      simpa [poppedFrames, acceptedFrames] using hconserved
  | other => exact ⟨h.unchanged, h.queue, h.admitted, h.counters⟩

end Intake

theorem run_conserves (memory : Controller) {config : Config} (hconfig : config.Valid)
    (calls : List Call) :
    (intake (run memory config calls).state).Conserves config
      (intakeEvents (run memory config calls).history) := by
  refine (run_intake memory config calls).invariant (fun events s => s.Conserves config events)
    (Intake.conserves_controllerInit memory hconfig) ?_
  intro _ _ _ _ h hstep
  exact h.step hstep

/-- A receive that returns an error leaves the queue and the accepted counters
as they were. -/
theorem receive_error (c : Controller) (frame : Ptr Frame) (h : (receive c frame).1 ≠ .ok) :
    (receive c frame).2.queue = c.queue ∧
      (receive c frame).2.counters =
        { c.counters with rejected := (receive c frame).2.counters.rejected } := by
  cases frame with
  | none => exact ⟨rfl, rfl⟩
  | some frame =>
      rcases receive_cases c frame with ⟨status, _, heq⟩ | heq | heq
      · rw [heq, rejectFrame, latchFault_eq]
        exact ⟨rfl, rfl⟩
      · rw [heq, rejectFrame, latchFault_eq]
        exact ⟨rfl, rfl⟩
      · rw [heq] at h
        exact absurd rfl h

/-- The intake loses, duplicates and reorders nothing. Popped and queued frames
are the accepted ones, each admitted by the configuration; an admitted frame is
refused exactly while eight accepted frames are waiting; the counters count
modulo `2 ^ 32`; and a refused receive disturbs neither queue nor counters. -/
theorem run_intake_conserves (memory : Controller) (config : Config) (hconfig : config.Valid)
    (calls : List Call) :
    let c := (run memory config calls).state
    let events := intakeEvents (run memory config calls).history
    poppedFrames events ++ c.queue.frames = acceptedFrames events ∧
    (∀ frame ∈ acceptedFrames events, config.Admits frame) ∧
    (∀ frame, config.Admits frame → ((receive c (some frame)).1 = .errFull ↔
      (acceptedFrames events).length = (poppedFrames events).length + frameQueueCapacity)) ∧
    (c.counters.uartAccepted = BitVec.ofNat 32 (acceptedOf interfaceUart events) ∧
      c.counters.spiAccepted =
        BitVec.ofNat 32 (acceptedOf interfaceSpi events + registerWrites events) ∧
      c.counters.canAccepted = BitVec.ofNat 32 (acceptedOf interfaceCan events) ∧
      c.counters.ethernetAccepted = BitVec.ofNat 32 (acceptedOf interfaceEthernet events) ∧
      c.counters.rejected = BitVec.ofNat 32 (rejectedReceives events)) ∧
    (∀ frame, (receive c frame).1 ≠ .ok →
      (receive c frame).2.queue = c.queue ∧
        (receive c frame).2.counters =
          { c.counters with rejected := (receive c frame).2.counters.rejected }) := by
  intro c events
  have hconserves : (intake c).Conserves config events := run_conserves memory hconfig calls
  obtain ⟨ring, hring, hqueue⟩ := hconserves.queue
  have hcounters : c.counters = countersOf events := hconserves.counters
  refine ⟨?_, hconserves.admitted, ?_, ?_, receive_error c⟩
  · rw [← hqueue]
    exact congrArg (poppedFrames events ++ ·) hring.frames
  · intro frame hadmits
    have hlength := congrArg List.length hqueue
    rw [List.length_append, RingBuffer.length_contents, ← hring.count] at hlength
    have hle := hring.count ▸ ring.count_le
    have hconfig' : c.config = config := hconserves.unchanged
    rw [receive_of_admits c frame (hconfig' ▸ hadmits), ← hlength]
    have hcount : (intake c).queue.count = c.queue.count := rfl
    rw [hcount] at hle ⊢
    by_cases hfull : c.queue.count.toNat ≥ frameQueueCapacity
    · rw [if_pos hfull]
      exact iff_of_true rfl (by omega)
    · rw [if_neg hfull]
      exact iff_of_false (by simp) (by omega)
  · rw [hcounters]
    exact ⟨rfl, rfl, rfl, rfl, rfl⟩

/-- Two accepted frames, one of them popped again. -/
theorem run_intake_conserves_popped :
    let frame := { zeroFrame with interfaceType := interfaceCan }
    let r := run zeroController defaultConfig
      [.receive (some frame), .receive (some frame), .queuePop (some zeroFrame)]
    let events := intakeEvents r.history
    poppedFrames events ++ r.state.queue.frames = acceptedFrames events ∧
      (acceptedFrames events).length = 2 ∧ (poppedFrames events).length = 1 :=
  ⟨(run_intake_conserves zeroController defaultConfig defaultConfig_valid _).1, by decide,
    by decide⟩

/-- The number of receives, of a frame or of a null pointer, that returned an
error. -/
def receiveErrors (history : History) : Nat :=
  history.countP fun x =>
    match x.call, x.reply with
    | .receive _, .status status => decide (status ≠ .ok)
    | _, _ => false

/-- Receiving a null pointer returns an error that the rejected counter does
not count. -/
theorem receive_null_uncounted :
    defaultConfig.Valid ∧
      (run zeroController defaultConfig [.receive none]).state.counters.rejected ≠
        BitVec.ofNat 32
          (receiveErrors (run zeroController defaultConfig [.receive none]).history) :=
  ⟨defaultConfig_valid, by decide⟩

end Esqh
