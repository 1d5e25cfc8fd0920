import Esqh.Firmware.Types

/-!
`src/queue.c`: the fixed ring buffer of received frames. Indices are the
source's `uint8_t` fields; an index outside the array, which no call of the
controller produces, stores nothing and yields the caller's own frame.
-/

namespace Esqh

def queueInit (queue : FrameQueue) : FrameQueue :=
  { queue with head := 0, tail := 0, count := 0 }

def queuePush (queue : FrameQueue) (frame : Ptr Frame) : Status × FrameQueue :=
  match frame with
  | none => (.errArgument, queue)
  | some frame =>
    if queue.count.toNat ≥ frameQueueCapacity then (.errFull, queue)
    else
      let tail := queue.tail + 1
      (.ok, { queue with
        entries := queue.entries.setIfInBounds queue.tail.toNat frame
        tail := if tail.toNat = frameQueueCapacity then 0 else tail
        count := queue.count + 1 })

/-- The destination frame is returned next to the queue. -/
def queuePop (queue : FrameQueue) (frame : Ptr Frame) : Status × FrameQueue × Ptr Frame :=
  match frame with
  | none => (.errArgument, queue, none)
  | some destination =>
    if queue.count = 0 then (.errEmpty, queue, some destination)
    else
      let head := queue.head + 1
      (.ok,
        { queue with
          head := if head.toNat = frameQueueCapacity then 0 else head
          count := queue.count - 1 },
        some (queue.entries[queue.head.toNat]?.getD destination))

/-! What the calls do to the indices does not depend on what the slots hold. -/

theorem queuePush_entries (queue : FrameQueue) (entries : Vector Frame frameQueueCapacity)
    (f g : Frame) :
    ∃ entries', (queuePush { queue with entries := entries } (some g)).2 =
      { (queuePush queue (some f)).2 with entries := entries' } := by
  simp only [queuePush]
  split
  next => exact ⟨entries, rfl⟩
  next => exact ⟨_, rfl⟩

theorem queuePop_entries (queue : FrameQueue) (entries : Vector Frame frameQueueCapacity)
    (f g : Frame) :
    (queuePop { queue with entries := entries } (some g)).2.1 =
      { (queuePop queue (some f)).2.1 with entries := entries } := by
  simp only [queuePop]
  split
  next => rfl
  next => rfl

end Esqh
