import Esqh.Firmware.Queue
import Esqh.Library.RingBuffer

/-!
The frame queue as a ring: its three indices agree with a well-formed ring of
the same slots, and push and pop act on the ring's contents.
-/

namespace Esqh

/-- The queued frames, next one first. -/
def FrameQueue.frames (queue : FrameQueue) : List Frame :=
  (List.range queue.count.toNat).map fun i =>
    have : (queue.head.toNat + i) % frameQueueCapacity < frameQueueCapacity :=
      Nat.mod_lt _ (by decide)
    queue.entries[(queue.head.toNat + i) % frameQueueCapacity]

/-- The queue's fields hold a ring; the tail is where its next element goes. -/
structure FrameQueue.Represents (queue : FrameQueue)
    (ring : RingBuffer Frame frameQueueCapacity) : Prop where
  slots : queue.entries = ring.slots
  head : queue.head.toNat = ring.head
  count : queue.count.toNat = ring.count
  tail : queue.tail.toNat = ring.slot ring.count

variable {queue : FrameQueue} {ring : RingBuffer Frame frameQueueCapacity}

theorem FrameQueue.Represents.frames (h : queue.Represents ring) :
    queue.frames = ring.contents := by
  have hcell (i : Nat) : ring.cell i =
      have : (queue.head.toNat + i) % frameQueueCapacity < frameQueueCapacity :=
        Nat.mod_lt _ (by decide)
      queue.entries[(queue.head.toNat + i) % frameQueueCapacity] := by
    simp only [RingBuffer.cell, RingBuffer.slot, h.slots, h.head]
  simp only [FrameQueue.frames, RingBuffer.contents, h.count, List.map_inj_left, hcell,
    implies_true]

theorem queueInit_represents (queue : FrameQueue) :
    (queueInit queue).Represents (RingBuffer.empty queue.entries (by decide)) where
  slots := rfl
  head := rfl
  count := rfl
  tail := rfl

theorem queuePush_full (h : queue.Represents ring) (hfull : ring.count = frameQueueCapacity)
    (frame : Frame) : queuePush queue (some frame) = (.errFull, queue) := by
  have hcount : frameQueueCapacity ≤ queue.count.toNat :=
    Nat.le_of_eq (hfull.symm.trans h.count.symm)
  exact if_pos hcount

theorem succ_toNat {index : U8} (h : index.toNat ≤ frameQueueCapacity) :
    (index + 1).toNat = index.toNat + 1 := by
  simp only [frameQueueCapacity] at h
  have hone : (1 : U8).toNat = 1 := rfl
  rw [BitVec.toNat_add, hone]
  omega

/-- The wrapped increment of an index below the capacity. -/
theorem wrap_toNat {index : U8} (h : index.toNat < frameQueueCapacity) :
    (if (index + 1).toNat = frameQueueCapacity then (0 : U8) else index + 1).toNat =
      (index.toNat + 1) % frameQueueCapacity := by
  have hnext := succ_toNat (Nat.le_of_lt h)
  by_cases hwrap : (index + 1).toNat = frameQueueCapacity
  · rw [if_pos hwrap, ← hnext, hwrap]
    rfl
  · rw [if_neg hwrap, hnext, Nat.mod_eq_of_lt (by omega)]

theorem queuePush_represents (h : queue.Represents ring)
    (hspace : ring.count < frameQueueCapacity) (frame : Frame) :
    (queuePush queue (some frame)).1 = .ok ∧
      (queuePush queue (some frame)).2.Represents (ring.push frame hspace) := by
  have hcount : ¬queue.count.toNat ≥ frameQueueCapacity := by
    rw [h.count]
    omega
  have hslot := ring.slot_lt ring.count
  have htail : queue.tail.toNat < frameQueueCapacity := h.tail ▸ hslot
  simp only [queuePush, if_neg hcount, true_and]
  constructor
  · simp only [RingBuffer.push, h.slots, h.tail]
    exact Vector.ext (fun i hi => by simp [Vector.getElem_setIfInBounds, Vector.getElem_set])
  · exact h.head
  · exact (succ_toNat (by omega)).trans (congrArg (· + 1) h.count)
  · rw [wrap_toNat htail, h.tail]
    simp only [RingBuffer.slot, RingBuffer.push, Nat.mod_add_mod, Nat.add_assoc]

theorem queuePop_empty (h : queue.Represents ring) (hempty : ring.count = 0)
    (destination : Frame) :
    queuePop queue (some destination) = (.errEmpty, queue, some destination) := by
  have hcount : queue.count = 0 := by
    apply BitVec.eq_of_toNat_eq
    rw [h.count, hempty]
    rfl
  exact if_pos hcount

theorem queuePop_represents (h : queue.Represents ring) (hne : 0 < ring.count)
    (destination : Frame) :
    (queuePop queue (some destination)).1 = .ok ∧
      (queuePop queue (some destination)).2.1.Represents ring.pop ∧
      (queuePop queue (some destination)).2.2 = some (ring.cell 0) := by
  have hcount : queue.count ≠ 0 := by
    intro hzero
    have hzero' := congrArg BitVec.toNat hzero
    rw [h.count] at hzero'
    exact Nat.ne_of_gt hne hzero'
  have hone : (1 : U8).toNat = 1 := rfl
  have hhead : queue.head.toNat < frameQueueCapacity := h.head ▸ ring.head_lt
  have hslot : ring.slot 0 = queue.head.toNat := by
    rw [h.head]
    exact Nat.mod_eq_of_lt ring.head_lt
  simp only [queuePop, if_neg hcount, true_and]
  refine ⟨⟨h.slots, ?_, ?_, ?_⟩, ?_⟩
  · rw [wrap_toNat hhead, h.head]
    rfl
  · have hle := h.count
    have hpop : (ring.pop).count = ring.count - 1 := rfl
    rw [BitVec.toNat_sub, hone, hpop]
    omega
  · have hsum : ring.head + 1 + (ring.count - 1) = ring.head + ring.count := by omega
    rw [h.tail]
    simp only [RingBuffer.slot, RingBuffer.pop, Nat.mod_add_mod, hsum]
  · simp only [RingBuffer.cell, hslot, ← h.slots, Vector.getElem?_eq_getElem hhead,
      Option.getD_some]

end Esqh
