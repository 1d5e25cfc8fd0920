import Esqh.Firmware.Answers
import Esqh.Firmware.Codec

/-!
The telemetry record: the twelve fields at their offsets, read back big-endian,
and what asking for telemetry does to the rest of a run, which is nothing.
-/

namespace Esqh

open Memory

/-- A 32-bit field as the encoder writes it, high byte first. -/
def be32 (value : U32) : List U8 :=
  [(value >>> 24).setWidth 8, (value >>> 16).setWidth 8, (value >>> 8).setWidth 8,
    value.setWidth 8]

@[simp] theorem length_be32 (value : U32) : (be32 value).length = 4 := rfl

theorem be32_append (value : U32) :
    (value >>> 24).setWidth 8 ++ (value >>> 16).setWidth 8 ++ (value >>> 8).setWidth 8 ++
      value.setWidth 8 = value := by
  apply BitVec.eq_of_getLsbD_eq
  intro i hi
  simp only [BitVec.getLsbD_append, BitVec.getLsbD_setWidth, BitVec.getLsbD_ushiftRight]
  by_cases h8 : i < 8
  · simp [h8]
  by_cases h16 : i - 8 < 8
  · simp [h8, h16, show 8 + (i - 8) = i by omega]
  by_cases h24 : i - 8 - 8 < 8
  · simp [h8, h16, h24, show 16 + (i - 8 - 8) = i by omega]
  · simp [h8, h16, h24, show i - 8 - 8 - 8 < 8 by omega, show 24 + (i - 8 - 8 - 8) = i by omega]

theorem writeU32_eq_splice {n : Nat} (bytes : Vector U8 n) (offset : Nat) (value : U32)
    (h : offset + 3 < n) :
    writeU32 bytes offset value = .ok (splice bytes offset (be32 value)) := by
  rw [writeU32, write_eq_splice _ _ (by omega), ok_bind, write_eq_splice _ _ (by omega), ok_bind,
    write_eq_splice _ _ (by omega), ok_bind, write_eq_splice _ _ h,
    splice_splice _ _ _ _ _ (by simp), splice_splice _ _ _ _ _ (by simp),
    splice_splice _ _ _ _ _ (by simp)]
  rfl

/-- A record's fields. -/
structure TelemetryRecord where
  sequence : U16
  state : U8
  reserved : U8
  faultBitmap : U32
  setpoint : Int16
  register : U16
  uartAccepted : U16
  spiAccepted : U16
  canAccepted : U16
  ethernetAccepted : U16
  rejected : U16
  crc : U16
  deriving DecidableEq

/-- Read a record's fields at their documented places, high byte first. -/
def parseRecord (bytes : Vector U8 telemetrySize) : TelemetryRecord :=
  { sequence := bytes[0] ++ bytes[1]
    state := bytes[2]
    reserved := bytes[3]
    faultBitmap := bytes[4] ++ bytes[5] ++ bytes[6] ++ bytes[7]
    setpoint := Int16.ofBitVec (bytes[8] ++ bytes[9])
    register := bytes[10] ++ bytes[11]
    uartAccepted := bytes[12] ++ bytes[13]
    spiAccepted := bytes[14] ++ bytes[15]
    canAccepted := bytes[16] ++ bytes[17]
    ethernetAccepted := bytes[18] ++ bytes[19]
    rejected := bytes[20] ++ bytes[21]
    crc := bytes[22] ++ bytes[23] }

/-- The bytes in front of the checksum. -/
def TelemetryRecord.body (r : TelemetryRecord) : List U8 :=
  be16 r.sequence ++ ([r.state] ++ ([r.reserved] ++ (be32 r.faultBitmap ++
    (be16 r.setpoint.toBitVec ++ (be16 r.register ++ (be16 r.uartAccepted ++
      (be16 r.spiAccepted ++ (be16 r.canAccepted ++
        (be16 r.ethernetAccepted ++ be16 r.rejected)))))))))

def TelemetryRecord.bytes (r : TelemetryRecord) : List U8 := r.body ++ be16 r.crc

theorem TelemetryRecord.length_body (r : TelemetryRecord) : r.body.length = 22 := rfl

/-- Every field is read back as it was written. -/
theorem parseRecord_splice (r : TelemetryRecord) (output : Vector U8 telemetrySize) :
    parseRecord (splice output 0 r.bytes) = r := by
  simp only [parseRecord, getElem_splice, TelemetryRecord.bytes, TelemetryRecord.body, be16, be32]
  simp [be16_append, be32_append]

theorem spiRegisterCount_pos : 0 < spiRegisterCount := by decide

/-- The record of a controller: its fields, the counters modulo `2 ^ 16`, and
the checksum over them. -/
def Controller.record (c : Controller) : TelemetryRecord :=
  let fields : TelemetryRecord :=
    { sequence := c.telemetrySequence
      state := c.state.code
      reserved := 0
      faultBitmap := c.faultBitmap
      setpoint := c.setpoint
      register := (c.spiRegisters.get ⟨0, spiRegisterCount_pos⟩).setWidth 16
      uartAccepted := c.counters.uartAccepted.setWidth 16
      spiAccepted := c.counters.spiAccepted.setWidth 16
      canAccepted := c.counters.canAccepted.setWidth 16
      ethernetAccepted := c.counters.ethernetAccepted.setWidth 16
      rejected := c.counters.rejected.setWidth 16
      crc := 0 }
  { fields with crc := crcOf fields.body }

theorem writeTelemetry_eq (c : Controller) (output : Vector U8 telemetrySize) :
    writeTelemetry c output = .ok (splice output 0 c.record.bytes) := by
  have hcrc : c.record.body.length + 1 < telemetrySize := by
    rw [TelemetryRecord.length_body]
    decide
  have hbody : c.record.body.length ≤ telemetrySize := by omega
  rw [writeTelemetry, writeU16_eq_splice _ _ _ (by decide), ok_bind,
    write_eq_splice _ _ (by decide), ok_bind, write_eq_splice _ _ (by decide), ok_bind,
    writeU32_eq_splice _ _ _ (by decide), ok_bind, writeU16_eq_splice _ _ _ (by decide), ok_bind,
    writeU16_eq_splice _ _ _ (by decide), ok_bind, writeU16_eq_splice _ _ _ (by decide), ok_bind,
    writeU16_eq_splice _ _ _ (by decide), ok_bind, writeU16_eq_splice _ _ _ (by decide), ok_bind,
    writeU16_eq_splice _ _ _ (by decide), ok_bind, writeU16_eq_splice _ _ _ (by decide), ok_bind]
  -- the writes are consecutive, so together they are the body
  rw [splice_splice _ _ _ _ _ (by simp), splice_splice _ _ _ _ _ (by simp),
    splice_splice _ _ _ _ _ (by simp), splice_splice _ _ _ _ _ (by simp),
    splice_splice _ _ _ _ _ (by simp), splice_splice _ _ _ _ _ (by simp),
    splice_splice _ _ _ _ _ (by simp), splice_splice _ _ _ _ _ (by simp),
    splice_splice _ _ _ _ _ (by simp), splice_splice _ _ _ _ _ (by simp)]
  change (crc16 (some (splice output 0 c.record.body)) 22 >>= fun crc =>
    writeU16 (splice output 0 c.record.body) 22 crc) = _
  rw [← c.record.length_body, crc16_eq _ _ hbody, take_splice_zero _ _ hbody, ok_bind,
    writeU16_eq_splice _ _ _ hcrc, splice_splice _ _ _ _ _ (by simp)]
  rfl

/-- The state that a code stands for. -/
def State.ofCode (code : U8) : Option State :=
  if code = 0 then some .init
  else if code = 1 then some .operational
  else if code = 2 then some .degraded
  else if code = 3 then some .safe
  else none

theorem State.ofCode_code (state : State) : State.ofCode state.code = some state := by
  cases state <;> rfl

/-! Runs. -/

/-- The calls that produce a record. -/
def Call.writesRecord : Call → Bool
  | .telemetry (some _) => true
  | _ => false

/-- A record takes the next number; no other call takes one. -/
theorem Answers.telemetrySequence {c c' : Controller} {x : Exchange} (h : Answers c x c') :
    c'.telemetrySequence =
      if x.call.writesRecord then c.telemetrySequence + 1 else c.telemetrySequence := by
  cases h <;> rfl

theorem run_telemetrySequence (memory : Controller) {config : Config} (hconfig : config.Valid)
    (calls : List Call) :
    (run memory config calls).state.telemetrySequence =
      BitVec.ofNat 16 (calls.countP Call.writesRecord) := by
  have hhistory := run_keeps memory config
    (fun history c => c.telemetrySequence =
      BitVec.ofNat 16 ((history.map Machine.Exchange.call).countP Call.writesRecord))
    (by
      have hvalid : configIsValid (some config) = .ok true := hconfig
      rw [controllerInit, if_pos hvalid]
      rfl)
    (by
      intro history c x c' h hanswer
      rw [hanswer.telemetrySequence, List.map_cons, List.countP_cons, h]
      cases x.call.writesRecord with
      | true => exact (BitVec.ofNat_add _ 1).symm
      | false => rfl) calls
  rwa [run, Machine.run_calls, List.countP_reverse] at hhistory

/-- A telemetry call writes the record of the controller with the next number. -/
theorem step_telemetry (c : Controller) (output : Vector U8 telemetrySize) :
    (step c (.telemetry (some output))).1 =
      .telemetry telemetrySize
        (.ok (some (splice output 0
          { c with telemetrySequence := c.telemetrySequence + 1 }.record.bytes))) := by
  simp only [step, telemetry, writeTelemetry_eq]
  rfl

/-! Deleting telemetry and register reads from a run. -/

/-- The calls that only look at the controller. -/
def Call.Looks : Call → Prop
  | .telemetry _ => True
  | .spiRead _ _ => True
  | _ => False

/-- An exchange without the bytes of its record. -/
def withoutRecord (x : Exchange) : Exchange :=
  match x.reply with
  | .telemetry size _ => ⟨x.call, .telemetry size (.ok none)⟩
  | reply => ⟨x.call, reply⟩

/-- The controller with another telemetry sequence. -/
def Controller.withTelemetry (c : Controller) (sequence : U16) : Controller :=
  { c with telemetrySequence := sequence }

/-- The controllers differ in the telemetry sequence at most. -/
def Controller.SameButTelemetry (c c' : Controller) : Prop :=
  ∃ sequence, c' = c.withTelemetry sequence

/-- Nothing but a record depends on the telemetry sequence. -/
theorem Answers.withTelemetry {c c' : Controller} {x : Exchange} (h : Answers c x c')
    (hcall : x.call.writesRecord = false) (sequence : U16) :
    Answers (c.withTelemetry sequence) x (c'.withTelemetry sequence) := by
  cases h with
  | recordWritten => cases hcall
  | _ => constructor <;> assumption

/-- With another telemetry sequence every call is answered alike, records apart,
and the controllers stay alike. -/
theorem step_withTelemetry (c : Controller) (sequence : U16) (call : Call) :
    withoutRecord ⟨call, (step c call).1⟩ =
        withoutRecord ⟨call, (step (c.withTelemetry sequence) call).1⟩ ∧
      ∃ sequence', (step (c.withTelemetry sequence) call).2 =
        (step c call).2.withTelemetry sequence' := by
  cases hcall : call.writesRecord with
  | false =>
      have hstep := ((step_answers c call).withTelemetry hcall sequence).step_eq
      rw [hstep]
      exact ⟨rfl, sequence, rfl⟩
  | true =>
      cases call with
      | telemetry output =>
          cases output with
          | none => cases hcall
          | some output =>
              refine ⟨?_, sequence + 1, rfl⟩
              simp only [step_telemetry, withoutRecord]
      | _ => cases hcall

/-- A call that only looks changes nothing but the telemetry sequence. -/
theorem step_looks (c : Controller) {call : Call} (hcall : call.Looks) (sequence : U16) :
    (step c call).2.withTelemetry sequence = c.withTelemetry sequence := by
  cases call with
  | spiRead address value => rfl
  | telemetry output =>
      cases output with
      | none => rfl
      | some output => rfl
  | _ => exact absurd hcall id

/-- The checksum over the fields is the one in the record. -/
theorem crc16_record (c : Controller) (output : Vector U8 telemetrySize) :
    crc16 (some (splice output 0 c.record.bytes)) 22 = .ok c.record.crc := by
  have hbytes : c.record.bytes.length = telemetrySize := by
    rw [TelemetryRecord.bytes, List.length_append, TelemetryRecord.length_body, length_be16]
  have hall := take_splice_zero output c.record.bytes (Nat.le_of_eq hbytes)
  have htake : (splice output 0 c.record.bytes).toList.take 22 = c.record.body :=
    calc (splice output 0 c.record.bytes).toList.take 22
      _ = ((splice output 0 c.record.bytes).toList.take c.record.bytes.length).take 22 := by
          rw [List.take_take, hbytes, Nat.min_eq_left (by decide)]
      _ = c.record.bytes.take 22 := by rw [hall]
      _ = c.record.body := by
          rw [← c.record.length_body, TelemetryRecord.bytes, List.take_left]
  have hcrc : c.record.crc = crcOf c.record.body := rfl
  rw [crc16_eq _ _ (by decide), htake, hcrc]

/-- Telemetry is faithful and invisible. The `k`-th record of a run reads back
as the controller's fields with the number `k`, under a checksum that matches;
and a run from which some telemetry calls and register reads are deleted gives
every other call the same answer, records apart, and ends in the same
controller but for the telemetry sequence. -/
theorem run_telemetry (memory : Controller) (config : Config) (hconfig : config.Valid) :
    (∀ (before : List Call) (output : Vector U8 telemetrySize),
      let c := (run memory config before).state
      let k := before.countP Call.writesRecord + 1
      ∃ bytes : Vector U8 telemetrySize,
        (step c (.telemetry (some output))).1 = .telemetry telemetrySize (.ok (some bytes)) ∧
        (parseRecord bytes).sequence = BitVec.ofNat 16 k ∧
        State.ofCode (parseRecord bytes).state = some c.state ∧
        (parseRecord bytes).reserved = 0 ∧
        (parseRecord bytes).faultBitmap = c.faultBitmap ∧
        (parseRecord bytes).setpoint = c.setpoint ∧
        (parseRecord bytes).register = c.spiRegisters[0].setWidth 16 ∧
        (parseRecord bytes).uartAccepted = c.counters.uartAccepted.setWidth 16 ∧
        (parseRecord bytes).spiAccepted = c.counters.spiAccepted.setWidth 16 ∧
        (parseRecord bytes).canAccepted = c.counters.canAccepted.setWidth 16 ∧
        (parseRecord bytes).ethernetAccepted = c.counters.ethernetAccepted.setWidth 16 ∧
        (parseRecord bytes).rejected = c.counters.rejected.setWidth 16 ∧
        crc16 (some bytes) 22 = .ok (parseRecord bytes).crc) ∧
    (∀ marked : List (Call × Bool), (∀ m ∈ marked, m.2 = false → m.1.Looks) →
      let full := run memory config (marked.map Prod.fst)
      let thin := run memory config ((marked.filter Prod.snd).map Prod.fst)
      thin.history.map withoutRecord =
          ((full.history.zip (marked.map Prod.snd).reverse).filter Prod.snd).map
            (fun x => withoutRecord x.1) ∧
        thin.state = full.state.withTelemetry thin.state.telemetrySequence) := by
  constructor
  · intro before output c k
    have hsequence : c.telemetrySequence + 1 = BitVec.ofNat 16 k := by
      rw [run_telemetrySequence memory hconfig before]
      exact (BitVec.ofNat_add _ 1).symm
    refine ⟨_, step_telemetry c output, ?_⟩
    rw [parseRecord_splice]
    exact ⟨hsequence, c.state.ofCode_code, rfl, rfl, rfl, rfl, rfl, rfl, rfl, rfl, rfl,
      crc16_record _ output⟩
  · intro marked hmarked full thin
    have hstart : (controllerInit memory (some config)).SameButTelemetry
        (controllerInit memory (some config)) := ⟨_, rfl⟩
    obtain ⟨hhistory, sequence, hstate⟩ :=
      Machine.run_deleting step Controller.SameButTelemetry withoutRecord hstart marked
        (by
          rintro c _ call ⟨sequence, rfl⟩
          exact step_withTelemetry c sequence call)
        (by
          rintro m hmem hdelete c _ ⟨sequence, rfl⟩
          exact ⟨sequence, (step_looks c (hmarked m hmem hdelete) sequence).symm⟩)
    have hthin : thin.state = full.state.withTelemetry sequence := hstate
    refine ⟨hhistory, ?_⟩
    rw [hthin]
    rfl

/-- The record after a record, read back, has the number two. -/
theorem run_telemetry_second :
    ∃ bytes : Vector U8 telemetrySize,
      (step (run zeroController defaultConfig
          [.telemetry (some (Vector.replicate telemetrySize 0)), .tick]).state
        (.telemetry (some (Vector.replicate telemetrySize 0)))).1 =
          .telemetry telemetrySize (.ok (some bytes)) ∧
        (parseRecord bytes).sequence = 2 := by
  obtain ⟨bytes, hreply, hsequence, _⟩ :=
    (run_telemetry zeroController defaultConfig defaultConfig_valid).1
      [.telemetry (some (Vector.replicate telemetrySize 0)), .tick]
      (Vector.replicate telemetrySize 0)
  exact ⟨bytes, hreply, hsequence⟩

end Esqh
