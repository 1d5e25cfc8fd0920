import Esqh.Firmware.ConfigContract
import Esqh.Firmware.Periods
import Esqh.Firmware.Startup
import Esqh.Firmware.StatusContract
import Esqh.Firmware.Telemetry

/-!
`firmware/main.c`: the two memory functions, the calls that keep the public
interface linked, and the main loop.
-/

namespace Esqh

open Memory Transfer

section MemoryFunctions

/-- The loop of `memcpy`, from `index` on. -/
def memcpyFrom (destination source length : Nat) (memory : Nat → U8) (index : Nat) : Nat → U8 :=
  if index < length then
    memcpyFrom destination source length
      (Function.update memory (destination + index) (memory (source + index))) (index + 1)
  else memory
termination_by length - index

/-- The memory and the returned pointer. -/
def memcpy (memory : Nat → U8) (destination source length : Nat) : (Nat → U8) × Nat :=
  (memcpyFrom destination source length memory 0, destination)

/-- The loop of `memset`, from `index` on. -/
def memsetFrom (destination : Nat) (value : Int) (length : Nat) (memory : Nat → U8)
    (index : Nat) : Nat → U8 :=
  if index < length then
    memsetFrom destination value length
      (Function.update memory (destination + index) (BitVec.ofInt 8 value)) (index + 1)
  else memory
termination_by length - index

def memset (memory : Nat → U8) (destination : Nat) (value : Int) (length : Nat) :
    (Nat → U8) × Nat :=
  (memsetFrom destination value length memory 0, destination)

theorem memcpyFrom_eq (destination source length : Nat) (memory : Nat → U8) (index : Nat) :
    memcpyFrom destination source length memory index =
      copyUp memory (destination + index) (source + index) (length - index) := by
  induction memory, index using memcpyFrom.induct destination source length with
  | case1 memory index hmore ih =>
      have hrest : length - index = length - (index + 1) + 1 := by omega
      rw [memcpyFrom, if_pos hmore, ih, hrest, copyUp]
      rfl
  | case2 memory index hdone =>
      have hrest : length - index = 0 := by omega
      rw [memcpyFrom, if_neg hdone, hrest, copyUp]

theorem memsetFrom_eq (destination : Nat) (value : Int) (length : Nat) (memory : Nat → U8)
    (index : Nat) : memsetFrom destination value length memory index =
      fillUp memory (destination + index) (BitVec.ofInt 8 value) (length - index) := by
  induction memory, index using memsetFrom.induct destination value length with
  | case1 memory index hmore ih =>
      have hrest : length - index = length - (index + 1) + 1 := by omega
      rw [memsetFrom, if_pos hmore, ih, hrest, fillUp]
      rfl
  | case2 memory index hdone =>
      have hrest : length - index = 0 := by omega
      rw [memsetFrom, if_neg hdone, hrest, fillUp]

theorem memcpy_eq (memory : Nat → U8) (destination source length : Nat) :
    memcpy memory destination source length =
      (copyUp memory destination source length, destination) := by
  rw [memcpy, memcpyFrom_eq]
  rfl

/-- The bytes that `memcpy` leaves, for regions that overlap in any way. Onto
bytes above its source it repeats the first ones, so it moves what was in the
source, whatever that is, exactly if the destination does not start inside. -/
theorem memcpy_exact (destination source length : Nat) :
    (∀ memory, (memcpy memory destination source length).2 = destination ∧
      ∀ address, (memcpy memory destination source length).1 address =
        if destination ≤ address ∧ address < destination + length then
          memory (source +
            if source < destination then (address - destination) % (destination - source)
            else address - destination)
        else memory address) ∧
      ((∀ memory, ∀ index < length,
        (memcpy memory destination source length).1 (destination + index) =
          memory (source + index)) ↔
        destination ≤ source ∨ source + length ≤ destination) := by
  have hbytes : Nontrivial U8 := ⟨0, 1, by decide⟩
  simp only [memcpy_eq]
  refine ⟨?_, copies_iff_clear destination source length⟩
  intro memory
  refine ⟨trivial, ?_⟩
  intro address
  rw [copyUp_apply]
  split
  next =>
    split
    next => rfl
    next hbelow => rw [Nat.sub_eq_zero_of_le (Nat.le_of_not_lt hbelow), Nat.mod_zero]
  next => rfl

/-- `memset` stores the low byte of its argument. -/
theorem memset_apply (memory : Nat → U8) (destination : Nat) (value : Int) (length address : Nat) :
    (memset memory destination value length).1 address =
      if destination ≤ address ∧ address < destination + length then BitVec.ofInt 8 value
      else memory address := by
  rw [memset, memsetFrom_eq]
  exact fillUp_apply memory destination _ length address

end MemoryFunctions

section LinkContract

/-- The enumerator's value, as it is cast to `uint32_t`. -/
def Status.code : Status → U32
  | .ok => 0
  | .errArgument => 1
  | .errLength => 2
  | .errChecksum => 3
  | .errRange => 4
  | .errFull => 5
  | .errEmpty => 6
  | .errSequence => 7
  | .errState => 8

/-- The static objects of the program, the volatile gate excepted. -/
structure Statics where
  controller : Controller
  linkContractConfig : Config
  linkContractFrame : Frame
  linkContractWire : Vector U8 (maxPayload + 16)
  linkContractTelemetry : Vector U8 telemetrySize
  linkContractSpiValue : U8
  linkContractWritten : Nat
  linkContractSink : U32

/-- The frame after the four assignments to its fields. -/
def assignHeader (frame : Frame) : Frame :=
  { frame with
    interfaceType := interfaceUart
    messageId := 1
    sequence := 1
    payloadLength := 0 }

/-- The calls that concern the queue and the codec. -/
def retainCodec (s : Statics) : Access Statics := do
  let controller := { s.controller with queue := queueInit s.controller.queue }
  let frame := assignHeader s.linkContractFrame
  let crc ← crc16 (some frame.payload) 0
  let (pushed, queue) := queuePush controller.queue (some frame)
  let (popped, queue, frame) := queuePop queue (some frame)
  let size := wireSize frame
  let (encoded, wire, written) ← frameEncode frame (some s.linkContractWire) (maxPayload + 16)
    (some s.linkContractWritten)
  let length := written.getD s.linkContractWritten
  let (decoded, frame) ← frameDecode interfaceUart wire length frame
  .ok { s with
    controller := { controller with queue := queue }
    linkContractFrame := frame.getD s.linkContractFrame
    linkContractWire := wire.getD s.linkContractWire
    linkContractWritten := length
    linkContractSink := s.linkContractSink ^^^ crc.setWidth 32 ^^^ pushed.code ^^^ popped.code ^^^
      BitVec.ofNat 32 size ^^^ encoded.code ^^^ decoded.code }

/-- The calls that concern the controller. -/
def retainController (s : Statics) : Access Statics := do
  let (written, controller) := spiWrite s.controller 0 0
  let (loaded, value) := spiRead controller 0 (some s.linkContractSpiValue)
  let controller := markSelfTestPassed controller
  let (beaten, controller) := heartbeat controller 1
  let (set, controller) := setpoint controller 2 0
  let controller := latchFault controller faultInterface false
  let (recovered, controller) := recover controller
  let controller := tick controller
  let (received, controller) := receive controller (some s.linkContractFrame)
  let (size, output, controller) := telemetry controller (some s.linkContractTelemetry)
  let output ← output
  .ok { s with
    controller := controller
    linkContractTelemetry := output.getD s.linkContractTelemetry
    linkContractSpiValue := value.getD s.linkContractSpiValue
    linkContractSink := s.linkContractSink ^^^ written.code ^^^ loaded.code ^^^ beaten.code ^^^
      set.code ^^^ recovered.code ^^^ received.code ^^^ BitVec.ofNat 32 size }

def retainPublicApiLinkContract (s : Statics) : Access Statics := do
  let config ← configDefault (some s.linkContractConfig)
  let valid ← configIsValid config
  let s ← retainCodec
    { s with
      controller := controllerInit s.controller config
      linkContractConfig := config.getD s.linkContractConfig
      linkContractSink := s.linkContractSink ^^^ if valid then 1 else 0 }
  retainController s

/-- The initialisation and some rounds of the endless loop. -/
def mainLoop (s : Statics) (stack : Config) (rounds : Nat) : Access Statics := do
  let config ← configDefault (some stack)
  let controller := markSelfTestPassed (controllerInit s.controller config)
  .ok { s with controller := tick^[rounds] controller }

/-- The gate is volatile: its value is what the read yields. The local
configuration starts as what was on the stack. -/
def firmwareMain (gate : U32) (s : Statics) (stack : Config) (rounds : Nat) : Access Statics :=
  if gate ≠ 0 then do
    let s ← retainPublicApiLinkContract s
    mainLoop s stack rounds
  else mainLoop s stack rounds

end LinkContract

section Returns

theorem assignHeader_valid (frame : Frame) : (assignHeader frame).Valid :=
  ⟨⟨Int.le_refl _, Int.le_of_lt (by decide : interfaceUart < interfaceEthernet)⟩,
    Nat.zero_le _, nofun⟩

/-- What is pushed into the empty queue is popped from it. -/
theorem queuePop_queuePush_init (queue : FrameQueue) (frame : Frame) :
    ∃ pushed popped, queuePush (queueInit queue) (some frame) = (.ok, pushed) ∧
      queuePop pushed (some frame) = (.ok, popped, some frame) := by
  have hfirst : (queue.entries.setIfInBounds 0 frame)[0]? = some frame := by simp
  have hpop : queuePop ⟨queue.entries.setIfInBounds 0 frame, 0, 1, 1⟩ (some frame) =
      (.ok, ⟨queue.entries.setIfInBounds 0 frame, 1, 1, 0⟩,
        some (((queue.entries.setIfInBounds 0 frame)[0]?).getD frame)) := by
    simp [queuePop]
  rw [hfirst, Option.getD_some] at hpop
  exact ⟨_, _, rfl, hpop⟩

/-- The calls on the queue and the codec return, whatever was in the memory. -/
theorem retainCodec_returns (s : Statics) : ∃ after, retainCodec s = .ok after := by
  have hvalid := assignHeader_valid s.linkContractFrame
  generalize hframe : assignHeader s.linkContractFrame = frame at hvalid
  have hcrc : crc16 (some frame.payload) 0 = .ok _ := crc16_eq _ 0 (Nat.zero_le _)
  obtain ⟨pushed, popped, hpush, hpop⟩ := queuePop_queuePush_init s.controller.queue frame
  obtain ⟨m, hm⟩ := hvalid.exists_message
  have hlength : m.wire.length ≤ maxPayload + 16 := m.length_wire_le.trans (by decide)
  have hencode := frameEncode_of_carries s.linkContractWire hm (maxPayload + 16)
    s.linkContractWritten hlength (Nat.le_refl _)
  obtain ⟨status, decoded, hdecode, _⟩ := frameDecode_settles interfaceUart
    (front (splice s.linkContractWire 0 m.wire) m.wire.length hlength) frame
  rw [frameDecode_front] at hdecode
  simp only [retainCodec, hframe, hcrc, hpush, ok_bind, hpop, hencode]
  rw [Option.getD_some, hdecode]
  exact ⟨_, rfl⟩

theorem retainController_returns (s : Statics) : ∃ after, retainController s = .ok after := by
  simp only [retainController, telemetry, writeTelemetry_eq, Except.map, ok_bind]
  exact ⟨_, rfl⟩

theorem retainPublicApiLinkContract_returns (s : Statics) :
    ∃ after, retainPublicApiLinkContract s = .ok after := by
  have hvalid : configIsValid (some defaultConfig) = .ok true := defaultConfig_valid
  rw [retainPublicApiLinkContract, configDefault_eq, ok_bind, hvalid, ok_bind]
  obtain ⟨middle, hmiddle⟩ := retainCodec_returns _
  rw [hmiddle, ok_bind]
  exact retainController_returns middle

end Returns

section MainLoop

/-- The divider of a clock after `n` ticks. -/
def divider (period : U8) (n : Nat) : Divider :=
  ⟨BitVec.ofNat 8 (period.toNat - n % period.toNat), BitVec.ofNat 32 (n / period.toNat)⟩

theorem divides_divider (period : U8) (n : Nat) : (divider period n).Divides period n where
  counter := by
    have hsmall : period.toNat < 256 := period.isLt
    rw [divider, BitVec.toNat_ofNat, Nat.mod_eq_of_lt (by omega)]
  releases := rfl

theorem eq_divider {d : Divider} {period : U8} {n : Nat} (h : d.Divides period n) :
    d = divider period n := by
  have hcounter : d.counter = (divider period n).counter :=
    BitVec.eq_of_toNat_eq (h.counter.trans (divides_divider period n).counter.symm)
  cases d
  exact congrArg₂ Divider.mk hcounter h.releases

theorem tick_divider {period : U8} (hperiod : 0 < period.toNat) (n : Nat) :
    (divider period n).tick period = divider period (n + 1) :=
  eq_divider ((divides_divider period n).tick hperiod)

/-- The controller after the default initialisation, the self-test and `n`
ticks, with what the watchdog may have changed. -/
def quiet (entries : Vector Frame frameQueueCapacity) (mode : State) (faults : U32) (n : Nat) :
    Controller :=
  { config := defaultConfig
    state := mode
    queue := { entries := entries, head := 0, tail := 0, count := 0 }
    counters :=
      { uartAccepted := 0
        spiAccepted := 0
        canAccepted := 0
        ethernetAccepted := 0
        rejected := 0 }
    elapsedMs := BitVec.ofNat 32 n
    lastHeartbeatMs := 0
    faultBitmap := faults
    task1msCount := BitVec.ofNat 32 n
    task10msCount := (divider 10 n).releases
    task100msCount := (divider 100 n).releases
    lastCommandSequence := 0
    telemetrySequence := 0
    setpoint := 0
    spiRegisters := Vector.replicate spiRegisterCount 0
    scheduler10ms := (divider 10 n).counter
    scheduler100ms := (divider 100 n).counter
    selfTestPassed := true
    heartbeatSeen := false }

/-- No heartbeat is ever sent: the controller waits for it as long as the
watchdog allows and is then safe for good. -/
def idle (entries : Vector Frame frameQueueCapacity) (n : Nat) : Controller :=
  if n ≤ 100 then quiet entries .init 0 n else quiet entries .safe faultWatchdog n

variable (entries : Vector Frame frameQueueCapacity) (mode : State) (faults : U32) (n : Nat)

@[simp] theorem idle_entries : (idle entries n).queue.entries = entries := by
  rw [idle]
  split <;> rfl

@[simp] theorem idle_state : (idle entries n).state = if n ≤ 100 then .init else .safe := by
  rw [idle]
  split <;> rfl

@[simp] theorem idle_faultBitmap :
    (idle entries n).faultBitmap = if n ≤ 100 then 0 else faultWatchdog := by
  rw [idle]
  split <;> rfl

theorem advanceClocks_quiet :
    advanceClocks (quiet entries mode faults n) = quiet entries mode faults (n + 1) := by
  have h10 := tick_divider (by decide : 0 < (10 : U8).toNat) n
  have h100 := tick_divider (by decide : 0 < (100 : U8).toNat) n
  have hclock : BitVec.ofNat 32 (n + 1) = BitVec.ofNat 32 n + 1 := BitVec.ofNat_add n 1
  rw [quiet, quiet, ← h10, ← h100, hclock]
  rfl

theorem tick_quiet : tick (quiet entries mode faults n) =
    if (n + 1) % 2 ^ 32 > 100 then
      latchFault (quiet entries mode faults (n + 1)) faultWatchdog true
    else quiet entries mode faults (n + 1) := by
  rw [tick, advanceClocks_quiet]
  apply if_congr _ rfl rfl
  have hsince : (quiet entries mode faults (n + 1)).elapsedMs -
      (quiet entries mode faults (n + 1)).lastHeartbeatMs = BitVec.ofNat 32 (n + 1) :=
    BitVec.sub_zero _
  rw [hsince, gt_iff_lt, BitVec.lt_def, BitVec.toNat_ofNat]
  exact and_iff_right rfl

theorem tick_idle : tick (idle entries n) = idle entries (n + 1) := by
  have hlatch (mode : State) (faults : U32) (h : faults ||| faultWatchdog = faultWatchdog) :
      latchFault (quiet entries mode faults (n + 1)) faultWatchdog true =
        quiet entries .safe faultWatchdog (n + 1) := by
    rw [latchFault, if_pos (.inl rfl)]
    exact congrArg (fun bitmap => quiet entries .safe bitmap (n + 1)) h
  rw [idle, idle]
  rcases Nat.lt_trichotomy n 100 with hbefore | rfl | hafter
  · rw [if_pos (by omega), if_pos (by omega), tick_quiet, if_neg (by omega)]
  · rw [if_pos (Nat.le_refl _), if_neg (by omega), tick_quiet, if_pos (by decide)]
    exact hlatch .init 0 (by decide)
  · rw [if_neg (by omega), if_neg (by omega), tick_quiet, hlatch .safe faultWatchdog (by decide)]
    exact ite_self _

theorem iterate_tick_idle (rounds : Nat) :
    tick^[rounds] (idle entries 0) = idle entries rounds := by
  induction rounds with
  | zero => rfl
  | succ rounds ih => rw [Function.iterate_succ_apply', ih, tick_idle]

/-- The initialisation does not depend on what was in the memory, apart from
the entries of the empty queue. -/
theorem markSelfTestPassed_init (memory : Controller) :
    markSelfTestPassed (controllerInit memory (some defaultConfig)) =
      idle memory.queue.entries 0 := by
  have hvalid : configIsValid (some defaultConfig) = .ok true := defaultConfig_valid
  rw [controllerInit, if_pos hvalid]
  rfl

/-- With the gate closed only the controller is touched. -/
theorem firmwareMain_eq (gate : U32) (s : Statics) (stack : Config) (rounds : Nat) :
    ∃ before, (gate = 0 → before = s) ∧ firmwareMain gate s stack rounds =
      .ok { before with controller := idle before.controller.queue.entries rounds } := by
  have hloop (before : Statics) : mainLoop before stack rounds =
      .ok { before with controller := idle before.controller.queue.entries rounds } := by
    simp only [mainLoop, configDefault_eq, ok_bind, markSelfTestPassed_init, iterate_tick_idle]
  rw [firmwareMain]
  split
  next hopen =>
    obtain ⟨before, hbefore⟩ := retainPublicApiLinkContract_returns s
    rw [hbefore, ok_bind]
    exact ⟨before, fun hclosed => absurd hclosed hopen, hloop before⟩
  next => exact ⟨s, fun _ => rfl, hloop s⟩

end MainLoop

/-- The main program stays within its arrays, whatever is in its memory and
whatever the gate reads. After any number of rounds its controller is that of a
system nobody talks to: it never becomes operational, and it is safe, with the
watchdog's fault alone, from the 101st round on. -/
theorem firmwareMain_idle (gate : U32) (s : Statics) (stack : Config) (rounds : Nat) :
    ∃ after, firmwareMain gate s stack rounds = .ok after ∧
      after.controller = idle after.controller.queue.entries rounds ∧
      after.controller.state = (if rounds ≤ 100 then .init else .safe) ∧
      after.controller.faultBitmap = (if rounds ≤ 100 then 0 else faultWatchdog) ∧
      (gate = 0 → after = { s with controller := idle s.controller.queue.entries rounds }) := by
  obtain ⟨before, hkept, hmain⟩ := firmwareMain_eq gate s stack rounds
  refine ⟨_, hmain, ?_, ?_, ?_, ?_⟩
  · exact congrArg (idle · rounds) (idle_entries _ rounds).symm
  · exact idle_state _ rounds
  · exact idle_faultBitmap _ rounds
  · intro hclosed
    rw [hkept hclosed]

/-- From the reset on: whatever the symbols of the linker script are, with the
gate anywhere in `.bss`, and from any memory. The handler clears the gate, so the
calls behind it are never made, and the main loop runs as above. -/
theorem reset_idle (symbols : Symbols) (memory : Nat → U8) (gate : Nat)
    (hlow : symbols.sbss ≤ gate) (hhigh : gate + 4 ≤ symbols.ebss)
    (statics : (Nat → U8) → Statics) (stack : Config) (rounds : Nat) :
    ∃ initialised, resetHandler symbols memory = some initialised ∧
      firmwareMain (wordAt initialised gate) (statics initialised) stack rounds =
        .ok
          { statics initialised with
            controller := idle (statics initialised).controller.queue.entries rounds } := by
  obtain ⟨initialised, hreset, hvalue⟩ := resetHandler_apply symbols memory
  have hzero (address : Nat) (hfrom : symbols.sbss ≤ address) (hto : address < symbols.ebss) :
      initialised address = 0 := by
    rw [hvalue, if_pos ⟨hfrom, hto⟩]
  have hclosed : wordAt initialised gate = 0 := by
    rw [wordAt, hzero _ (by omega) (by omega), hzero _ (by omega) (by omega),
      hzero _ (by omega) (by omega), hzero _ (by omega) (by omega)]
    rfl
  obtain ⟨before, hkept, hmain⟩ :=
    firmwareMain_eq (wordAt initialised gate) (statics initialised) stack rounds
  rw [hkept hclosed] at hmain
  exact ⟨initialised, hreset, hmain⟩

/-- Static objects to start the main program with. -/
def zeroStatics : Statics :=
  { controller := quiet (Vector.replicate frameQueueCapacity zeroFrame) .init 0 0
    linkContractConfig := defaultConfig
    linkContractFrame := zeroFrame
    linkContractWire := Vector.replicate (maxPayload + 16) 0
    linkContractTelemetry := Vector.replicate telemetrySize 0
    linkContractSpiValue := 0
    linkContractWritten := 0
    linkContractSink := 0 }

/-- A program with 8 bytes of `.bss`, the last four of them the gate, on a board
whose memory is all ones, in its 101st round. -/
theorem reset_idle_sample : ∃ symbols initialised,
    (⟨⟨64, 2⟩, ⟨5000, 2⟩, ⟨17, 2⟩, ⟨8, 3⟩, 0⟩ : Sections).place = some symbols ∧
      resetHandler symbols (fun _ => 255) = some initialised ∧
      ∃ after, firmwareMain (wordAt initialised (symbols.sbss + 4)) zeroStatics defaultConfig 101 =
        .ok after ∧ after.controller.state = .safe := by
  obtain ⟨symbols, hsymbols⟩ : ∃ symbols,
      (⟨⟨64, 2⟩, ⟨5000, 2⟩, ⟨17, 2⟩, ⟨8, 3⟩, 0⟩ : Sections).place = some symbols := ⟨_, rfl⟩
  obtain ⟨_, hbss⟩ := Sections.of_place hsymbols
  obtain ⟨initialised, hreset, hmain⟩ :=
    reset_idle symbols (fun _ => 255) (symbols.sbss + 4) (Nat.le_add_right _ _) hbss
      (fun _ => zeroStatics) defaultConfig 101
  exact ⟨symbols, initialised, hsymbols, hreset, _, hmain, idle_state _ 101⟩

end Esqh
