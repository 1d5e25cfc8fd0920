import Esqh.Firmware.Fifo
import Esqh.Library.Machine

/-!
The frame queue on its own, as a machine of pushes and pops, against a list of
at most eight frames. The list knows nothing of indices; every run of the queue
gives the replies that the list gives.
-/

namespace Esqh

inductive QueueCall where
  | push (frame : Ptr Frame)
  | pop (destination : Ptr Frame)

/-- The status and, for a pop, the caller's frame afterwards. -/
inductive QueueReply where
  | pushed (status : Status)
  | popped (status : Status) (frame : Ptr Frame)
  deriving DecidableEq

def QueueReply.status : QueueReply → Status
  | .pushed status => status
  | .popped status _ => status

def queueStep (queue : FrameQueue) : QueueCall → QueueReply × FrameQueue
  | .push frame =>
    let (status, queue) := queuePush queue frame
    (.pushed status, queue)
  | .pop destination =>
    let (status, queue, frame) := queuePop queue destination
    (.popped status frame, queue)

/-- The list that the queue stands for, next frame first. -/
def fifoStep (frames : List Frame) : QueueCall → QueueReply × List Frame
  | .push none => (.pushed .errArgument, frames)
  | .push (some frame) =>
    if frames.length < frameQueueCapacity then (.pushed .ok, frames ++ [frame])
    else (.pushed .errFull, frames)
  | .pop none => (.popped .errArgument none, frames)
  | .pop (some destination) =>
    match frames with
    | [] => (.popped .errEmpty (some destination), [])
    | frame :: rest => (.popped .ok (some frame), rest)

/-- The queue holds a ring whose contents are the list. -/
def FrameQueue.Holds (queue : FrameQueue) (frames : List Frame) : Prop :=
  ∃ ring, queue.Represents ring ∧ ring.contents = frames

variable {queue : FrameQueue} {frames : List Frame}

theorem FrameQueue.Holds.frames_eq (h : queue.Holds frames) : queue.frames = frames := by
  obtain ⟨ring, hring, hcontents⟩ := h
  exact hring.frames.trans hcontents

/-- The three counters of a queue that holds a list. -/
theorem FrameQueue.Holds.indices (h : queue.Holds frames) :
    queue.head.toNat < frameQueueCapacity ∧ queue.tail.toNat < frameQueueCapacity ∧
      queue.count.toNat = frames.length ∧ queue.count.toNat ≤ frameQueueCapacity ∧
      queue.tail.toNat = (queue.head.toNat + queue.count.toNat) % frameQueueCapacity := by
  obtain ⟨ring, hring, hcontents⟩ := h
  have hlength : ring.count = frames.length := by rw [← hcontents, ring.length_contents]
  have htail := hring.tail
  rw [hring.head, hring.count, htail]
  exact ⟨ring.head_lt, ring.slot_lt _, hlength, ring.count_le, rfl⟩

/-- One call: the queue answers as the list does and holds the list afterwards. -/
theorem queueStep_holds (h : queue.Holds frames) (call : QueueCall) :
    (queueStep queue call).1 = (fifoStep frames call).1 ∧
      (queueStep queue call).2.Holds (fifoStep frames call).2 := by
  obtain ⟨ring, hring, rfl⟩ := h
  have hholds : queue.Holds ring.contents := ⟨ring, hring, rfl⟩
  cases call with
  | push frame =>
      rcases frame with _ | frame
      · exact ⟨rfl, hholds⟩
      simp only [fifoStep, ring.length_contents]
      by_cases hspace : ring.count < frameQueueCapacity
      · obtain ⟨hstatus, hpush⟩ := queuePush_represents hring hspace frame
        rw [if_pos hspace]
        exact ⟨congrArg QueueReply.pushed hstatus, _, hpush, ring.contents_push frame hspace⟩
      · have hfull : ring.count = frameQueueCapacity := by
          have hle := ring.count_le
          omega
        rw [if_neg hspace]
        simp only [queueStep, queuePush_full hring hfull frame]
        exact ⟨trivial, hholds⟩
  | pop destination =>
      rcases destination with _ | destination
      · exact ⟨rfl, hholds⟩
      rcases Nat.eq_zero_or_pos ring.count with hempty | hne
      · have hnil : ring.contents = [] := by
          apply List.eq_nil_of_length_eq_zero
          rw [ring.length_contents, hempty]
        simp only [queueStep, queuePop_empty hring hempty destination, hnil, fifoStep]
        exact ⟨trivial, hnil ▸ hholds⟩
      · obtain ⟨hstatus, hpop, hfront⟩ := queuePop_represents hring hne destination
        simp only [queueStep, hstatus, hfront, ring.contents_pop hne, fifoStep]
        exact ⟨trivial, _, hpop, rfl⟩

theorem queueStep_error (queue : FrameQueue) (call : QueueCall)
    (h : (queueStep queue call).1.status ≠ .ok) :
    (queueStep queue call).2 = queue ∧
      ∀ destination, call = .pop destination →
        (queueStep queue call).1 = .popped (queueStep queue call).1.status destination := by
  cases call with
  | push frame =>
      refine ⟨?_, by simp⟩
      rcases frame with _ | frame
      · rfl
      · simp only [queueStep, queuePush] at h ⊢
        split
        next => rfl
        next hspace =>
          rw [if_neg hspace] at h
          exact absurd rfl h
  | pop destination =>
      rcases destination with _ | destination
      · refine ⟨rfl, ?_⟩
        intro _ heq
        cases heq
        rfl
      · simp only [queueStep, queuePop] at h ⊢
        split
        next =>
          refine ⟨rfl, ?_⟩
          intro _ heq
          cases heq
          rfl
        next hne =>
          rw [if_neg hne] at h
          exact absurd rfl h

/-- The ring buffer refines a list of at most eight frames. Over any sequence
of pushes and pops it gives the list's statuses and frames, keeps its indices
in step with each other, and a call that returns an error changes neither the
queue nor the caller's frame. -/
theorem queue_refines_fifo (memory : FrameQueue) (calls : List QueueCall) :
    let r := Machine.run queueStep (queueInit memory) calls
    let s := Machine.run fifoStep [] calls
    (r.history = s.history ∧ r.state.frames = s.state) ∧
    (r.state.head.toNat < frameQueueCapacity ∧ r.state.tail.toNat < frameQueueCapacity ∧
      r.state.count.toNat = s.state.length ∧ r.state.count.toNat ≤ frameQueueCapacity ∧
      r.state.tail.toNat =
        (r.state.head.toNat + r.state.count.toNat) % frameQueueCapacity) ∧
    (∀ call, (queueStep r.state call).1.status ≠ .ok →
      (queueStep r.state call).2 = r.state ∧
        ∀ destination, call = .pop destination →
          (queueStep r.state call).1 =
            .popped (queueStep r.state call).1.status destination) := by
  intro r s
  have hstart : (queueInit memory).Holds [] := ⟨_, queueInit_represents memory, rfl⟩
  obtain ⟨hhistory, hholds⟩ :=
    Machine.run_simulates queueStep fifoStep FrameQueue.Holds hstart
      (fun _ _ call h => queueStep_holds h call) calls
  exact ⟨⟨hhistory, hholds.frames_eq⟩, hholds.indices, fun call => queueStep_error r.state call⟩

end Esqh
