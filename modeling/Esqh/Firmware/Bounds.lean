import Esqh.Firmware.Answers
import Esqh.Firmware.QueueRefinement
import Esqh.Firmware.StatusContract

/-!
Accesses to arrays under hostile inputs. The codec's computations are checked
as they stand. For the controller this module repeats the calls that index an
array or shift by a computed amount, with every access checked, and shows that
no run ever fails a check.
-/

namespace Esqh

open Memory

/-- The queue's operations with their array accesses checked. -/
def queuePushChecked (queue : FrameQueue) (frame : Ptr Frame) : Access (Status × FrameQueue) :=
  match frame with
  | none => .ok (.errArgument, queue)
  | some frame =>
    if queue.count.toNat ≥ frameQueueCapacity then .ok (.errFull, queue)
    else do
      let entries ← write queue.entries queue.tail.toNat frame
      let tail := queue.tail + 1
      .ok (.ok, { queue with
        entries := entries
        tail := if tail.toNat = frameQueueCapacity then 0 else tail
        count := queue.count + 1 })

def queuePopChecked (queue : FrameQueue) (frame : Ptr Frame) :
    Access (Status × FrameQueue × Ptr Frame) :=
  match frame with
  | none => .ok (.errArgument, queue, none)
  | some destination =>
    if queue.count = 0 then .ok (.errEmpty, queue, some destination)
    else do
      let entry ← read queue.entries queue.head.toNat
      let head := queue.head + 1
      .ok (.ok,
        { queue with
          head := if head.toNat = frameQueueCapacity then 0 else head
          count := queue.count - 1 },
        some entry)

def spiWriteChecked (c : Controller) (address value : U8) : Access (Status × Controller) :=
  if address.toNat ≥ spiRegisterCount then .ok (.errRange, latchFault c faultInterface false)
  else do
    let registers ← write c.spiRegisters address.toNat value
    .ok (.ok, { c with
      spiRegisters := registers
      counters := { c.counters with spiAccepted := c.counters.spiAccepted + 1 } })

def spiReadChecked (c : Controller) (address : U8) (value : Ptr U8) : Access (Status × Ptr U8) :=
  match value with
  | none => .ok (.errArgument, none)
  | some byte =>
    if address.toNat ≥ spiRegisterCount then .ok (.errRange, some byte)
    else do
      let register ← read c.spiRegisters address.toNat
      .ok (.ok, some register)

/-- The number of interfaces, each with one bit of the enabled mask. -/
abbrev interfaceCount : Nat := 4

/-- The enabled bit, with the shift amount checked. -/
def enabledBitChecked (interfaceType : Int) : Access U32 :=
  let amount : U32 := BitVec.ofInt 32 interfaceType - 1
  if amount.toNat < interfaceCount then .ok ((1 : U32) <<< amount)
  else .error ⟨amount.toNat, interfaceCount⟩

def receiveChecked (c : Controller) (frame : Ptr Frame) : Access (Status × Controller) :=
  match frame with
  | none => .ok (.errArgument, c)
  | some frame =>
    if frame.interfaceType < interfaceUart ∨ frame.interfaceType > interfaceEthernet ∨
        frame.payloadLength > payloadLimit frame.interfaceType then
      .ok (.errRange, rejectFrame c faultInterface)
    else if frame.interfaceType = interfaceCan ∧ frame.messageId > 0x07ff then
      .ok (.errRange, rejectFrame c faultInterface)
    else do
      let enabledBit ← enabledBitChecked frame.interfaceType
      if c.config.enabledInterfaceMask &&& enabledBit = 0 then
        .ok (.errState, rejectFrame c faultInterface)
      else do
        let answer ← queuePushChecked c.queue (some frame)
        match answer with
        | (.ok, queue) =>
          .ok (.ok, { c with
            queue := queue
            counters := countAccepted c.counters frame.interfaceType })
        | (status, queue) =>
          .ok (status, rejectFrame { c with queue := queue } faultQueueOverflow)

/-- One call with its array accesses checked. The other calls index nothing by
a computed number. -/
def stepChecked (c : Controller) : Call → Access (Reply × Controller)
  | .receive frame => do
    let (status, c) ← receiveChecked c frame
    .ok (.status status, c)
  | .spiWrite address value => do
    let (status, c) ← spiWriteChecked c address value
    .ok (.status status, c)
  | .spiRead address value => do
    let (status, byte) ← spiReadChecked c address value
    .ok (.value status byte, c)
  | .queuePop frame => do
    let (status, queue, frame) ← queuePopChecked c.queue frame
    .ok (.popped status frame, { c with queue := queue })
  | call => .ok (step c call)

/-- A run that stops at the first access out of bounds. -/
def runChecked (memory : Controller) (config : Config) (calls : List Call) :
    Access (Machine.Run Controller Call Reply) :=
  calls.foldlM
    (fun r call => do
      let (reply, c) ← stepChecked r.state call
      .ok ⟨⟨call, reply⟩ :: r.history, c⟩)
    ⟨[], controllerInit memory (some config)⟩

theorem write_of_lt {α : Type} {n : Nat} (target : Vector α n) {index : Nat} (value : α)
    (h : index < n) : write target index value = .ok (target.setIfInBounds index value) := by
  rw [write, dif_pos h]
  congr 1
  exact Vector.ext (fun i hi => by simp [Vector.getElem_setIfInBounds, Vector.getElem_set])

section Checks

variable (c : Controller)

theorem queuePushChecked_eq {queue : FrameQueue} (h : queue.tail.toNat < frameQueueCapacity)
    (frame : Ptr Frame) : queuePushChecked queue frame = .ok (queuePush queue frame) := by
  cases frame with
  | none => rfl
  | some frame =>
      simp only [queuePushChecked, queuePush, write_of_lt queue.entries frame h]
      split_ifs <;> rfl

theorem queuePopChecked_eq {queue : FrameQueue} (h : queue.head.toNat < frameQueueCapacity)
    (frame : Ptr Frame) : queuePopChecked queue frame = .ok (queuePop queue frame) := by
  cases frame with
  | none => rfl
  | some destination =>
      simp only [queuePopChecked, queuePop, read_of_lt queue.entries h,
        Vector.getElem?_eq_getElem h, Option.getD_some]
      split_ifs <;> rfl

theorem spiWriteChecked_eq (address value : U8) :
    spiWriteChecked c address value = .ok (spiWrite c address value) := by
  unfold spiWriteChecked spiWrite
  by_cases h : address.toNat < spiRegisterCount
  · rw [if_neg (Nat.not_le_of_lt h), if_neg (Nat.not_le_of_lt h), write_of_lt _ _ h]
    rfl
  · rw [if_pos (Nat.le_of_not_lt h), if_pos (Nat.le_of_not_lt h)]

theorem spiReadChecked_eq (address : U8) (value : Ptr U8) :
    spiReadChecked c address value = .ok (spiRead c address value) := by
  cases value with
  | none => rfl
  | some byte =>
      simp only [spiReadChecked, spiRead]
      by_cases h : address.toNat < spiRegisterCount
      · rw [if_neg (Nat.not_le_of_lt h), if_neg (Nat.not_le_of_lt h), read_of_lt _ h,
          Vector.getElem?_eq_getElem h]
        rfl
      · rw [if_pos (Nat.le_of_not_lt h), if_pos (Nat.le_of_not_lt h)]

theorem enabledBitChecked_eq {interfaceType : Int} (hlow : interfaceUart ≤ interfaceType)
    (hhigh : interfaceType ≤ interfaceEthernet) :
    enabledBitChecked interfaceType = .ok (enabledBit interfaceType) := by
  obtain ⟨i, rfl⟩ := Interface.exists_code ⟨hlow, hhigh⟩
  cases i <;> rfl

theorem receiveChecked_eq (h : c.queue.tail.toNat < frameQueueCapacity) (frame : Ptr Frame) :
    receiveChecked c frame = .ok (receive c frame) := by
  cases frame with
  | none => rfl
  | some frame =>
      unfold receiveChecked receive
      by_cases hshape : frame.interfaceType < interfaceUart ∨
          frame.interfaceType > interfaceEthernet ∨
          frame.payloadLength > payloadLimit frame.interfaceType
      · simp only [if_pos hshape]
      · obtain ⟨hlow, hhigh, _⟩ : _ ∧ _ ∧ _ := by
          simpa only [not_or, not_lt, gt_iff_lt] using hshape
        simp only [if_neg hshape, enabledBitChecked_eq hlow hhigh, queuePushChecked_eq h, ok_bind]
        split_ifs
        · rfl
        · rfl
        · rcases queuePush c.queue (some frame) with ⟨status, queue⟩
          cases status <;> rfl

/-- While the queue's indices are in range, no access of a call is out of bounds. -/
theorem stepChecked_eq (hhead : c.queue.head.toNat < frameQueueCapacity)
    (htail : c.queue.tail.toNat < frameQueueCapacity) (call : Call) :
    stepChecked c call = .ok (step c call) := by
  cases call with
  | receive frame =>
      rw [stepChecked, receiveChecked_eq c htail]
      rfl
  | spiWrite address value =>
      rw [stepChecked, spiWriteChecked_eq]
      rfl
  | spiRead address value =>
      rw [stepChecked, spiReadChecked_eq]
      rfl
  | queuePop frame =>
      rw [stepChecked, queuePopChecked_eq hhead]
      rfl
  | _ => rfl

end Checks

/-- Every call leaves a ring in the queue. -/
theorem Answers.represents {c c' : Controller} {x : Exchange} (h : Answers c x c')
    (hring : ∃ frames, c.queue.Holds frames) : ∃ frames, c'.queue.Holds frames := by
  obtain ⟨frames, hholds⟩ := hring
  cases h with
  | @frameAccepted frame _ _ => exact ⟨_, (queueStep_holds hholds (.push (some frame))).2⟩
  | @framePopped destination _ _ _ =>
      exact ⟨_, (queueStep_holds hholds (.pop (some destination))).2⟩
  | _ => exact ⟨frames, hholds⟩

/-- The queue is a ring after initialisation, and in zeroed memory even if the
configuration is refused. -/
theorem run_holds (memory : Controller) (config : Config)
    (hinit : config.Valid ∨ memory = zeroController) (calls : List Call) :
    ∃ frames, (run memory config calls).state.queue.Holds frames := by
  refine run_keeps memory config (fun _ c => ∃ frames, c.queue.Holds frames) ?_ ?_ calls
  · have hempty (queue : FrameQueue) : (queueInit queue).Holds [] :=
      ⟨_, queueInit_represents queue, rfl⟩
    by_cases hvalid : configIsValid (some config) = .ok true
    · rw [controllerInit, if_pos hvalid]
      exact ⟨[], hempty memory.queue⟩
    · obtain rfl : memory = zeroController := hinit.resolve_left hvalid
      rw [controllerInit, if_neg hvalid]
      exact ⟨[], hempty zeroController.queue⟩
  · intro _ c _ c' h hanswer
    exact hanswer.represents h

theorem runChecked_eq (memory : Controller) (config : Config)
    (hinit : config.Valid ∨ memory = zeroController) (calls : List Call) :
    runChecked memory config calls = .ok (run memory config calls) := by
  induction calls using List.reverseRecOn with
  | nil => rfl
  | append_singleton before call ih =>
      obtain ⟨frames, hholds⟩ := run_holds memory config hinit before
      obtain ⟨hhead, htail, _⟩ := hholds.indices
      rw [runChecked] at ih ⊢
      have hrun : run memory config (before ++ [call]) =
          (run memory config before).next step call := Machine.run_snoc step _ before call
      rw [List.foldlM_append, ih, ok_bind, List.foldlM_cons, stepChecked_eq _ hhead htail, hrun]
      rfl

/-- No access is out of bounds. The decoder returns on every buffer of exactly
the input length. The encoder writes nothing if the capacity is too small, and
otherwise does the same on a buffer of exactly the frame's size. No run of the
controller stops at an array index or a shift amount out of range. -/
theorem accesses_in_bounds :
    (∀ (t : Int) (n : Nat) (input : Vector U8 n) (frame : Frame), ∃ status frame',
      frameDecode t (some input) n (some frame) = .ok (status, some frame')) ∧
    (∀ (f : Frame) (n : Nat) (output : Vector U8 n) (capacity written : Nat) (h : capacity ≤ n),
      (capacity < wireSize (some f) → ∃ status,
        frameEncode (some f) (some output) capacity (some written) =
          .ok (status, some output, some written)) ∧
      (∀ hfit : wireSize (some f) ≤ capacity, ∃ status kept written',
        frameEncode (some f) (some (front output (wireSize (some f)) (hfit.trans h))) capacity
            (some written) = .ok (status, some kept, some written') ∧
        frameEncode (some f) (some output) capacity (some written) =
          .ok (status, some (splice output 0 kept.toList), some written'))) ∧
    (∀ (memory : Controller) (config : Config) (calls : List Call),
      config.Valid ∨ memory = zeroController →
      runChecked memory config calls = .ok (run memory config calls) ∧
      (run memory config calls).state.queue.head.toNat < frameQueueCapacity ∧
      (run memory config calls).state.queue.tail.toNat < frameQueueCapacity) := by
  refine ⟨?_, ?_, ?_⟩
  · intro t n input frame
    obtain ⟨status, frame', h, _⟩ := frameDecode_settles t input frame
    exact ⟨status, frame', h⟩
  · intro f n output capacity written h
    rcases frameEncode_refuses f capacity written with ⟨hvalid, hsize⟩ | ⟨status, _, hrefuse⟩
    · refine ⟨fun hsmall => absurd hsize (Nat.not_le_of_lt hsmall), fun hfit => ?_⟩
      obtain ⟨m, hm⟩ := hvalid.exists_message
      have hlength : m.wire.length = wireSize (some f) := hm.wireSize_eq.symm
      have hcapacity : m.wire.length ≤ capacity := hlength ▸ hfit
      have hshort := frameEncode_of_fits (front output (wireSize (some f)) (hfit.trans h)) hm
        capacity written hcapacity (Nat.le_of_eq hlength)
      refine ⟨_, _, _, hshort, ?_⟩
      rw [toList_splice_zero _ _ hlength]
      exact frameEncode_of_carries output hm capacity written hcapacity h
    · refine ⟨fun _ => ⟨status, hrefuse n output⟩, fun hfit => ?_⟩
      refine ⟨status, _, written, hrefuse _ _, ?_⟩
      rw [splice_front]
      exact hrefuse n output
  · intro memory config calls hinit
    obtain ⟨frames, hholds⟩ := run_holds memory config hinit calls
    obtain ⟨hhead, htail, _⟩ := hholds.indices
    exact ⟨runChecked_eq memory config hinit calls, hhead, htail⟩

/-- A frame with the largest length, a write to the last register, a pop of the empty queue. -/
theorem accesses_in_bounds_default :
    runChecked zeroController defaultConfig
        [.receive (some { zeroFrame with payloadLength := 0xffff }), .spiWrite 15 1,
          .queuePop (some zeroFrame)] =
      .ok (run zeroController defaultConfig
        [.receive (some { zeroFrame with payloadLength := 0xffff }), .spiWrite 15 1,
          .queuePop (some zeroFrame)]) :=
  (accesses_in_bounds.2.2 _ _ _ (.inl defaultConfig_valid)).1

end Esqh
