import Esqh.Firmware.Telemetry

/-!
Where the data goes. The identifiers and payloads of frames and the values of
registers pass through the controller: they come back from it, but no mode, no
fault, no counter and no status depends on them.
-/

namespace Esqh

open Memory

/-- The controller with other frames in its queue and other register values. -/
def Controller.withData (c : Controller) (entries : Vector Frame frameQueueCapacity)
    (registers : Vector U8 spiRegisterCount) : Controller :=
  { c with queue := { c.queue with entries := entries }, spiRegisters := registers }

/-- The controllers differ in data at most. -/
def Controller.SameControl (c c' : Controller) : Prop :=
  ∃ entries registers, c' = c.withData entries registers

/-- Frames that the intake has to treat alike. -/
structure Frame.SameShape (f g : Frame) : Prop where
  interfaceType : g.interfaceType = f.interfaceType
  payloadLength : g.payloadLength = f.payloadLength
  messageId : f.interfaceType = interfaceCan → (g.messageId ≤ 0x07ff ↔ f.messageId ≤ 0x07ff)

/-- Calls that differ in data at most, or in what their destinations held. -/
inductive Call.SameControl : Call → Call → Prop
  | same (call) : SameControl call call
  | receive {f g : Frame} (h : f.SameShape g) :
      SameControl (.receive (some f)) (.receive (some g))
  | spiWrite {address value value' : U8} :
      SameControl (.spiWrite address value) (.spiWrite address value')
  | spiRead {address byte byte' : U8} :
      SameControl (.spiRead address (some byte)) (.spiRead address (some byte'))
  | queuePop {f g : Frame} : SameControl (.queuePop (some f)) (.queuePop (some g))
  | telemetry {output output' : Vector U8 telemetrySize} :
      SameControl (.telemetry (some output)) (.telemetry (some output'))

/-- What a reply tells apart from data. -/
structure ControlReply where
  status : Option Status
  size : Nat
  record : Access (Option TelemetryRecord)

/-- Of a record everything counts but the register and the checksum. -/
def Reply.control : Reply → ControlReply
  | .void => ⟨none, 0, .ok none⟩
  | .status answer => ⟨some answer, 0, .ok none⟩
  | .value answer _ => ⟨some answer, 0, .ok none⟩
  | .popped answer _ => ⟨some answer, 0, .ok none⟩
  | .telemetry size output =>
    ⟨none, size,
      output.map (Option.map fun bytes => { parseRecord bytes with register := 0, crc := 0 })⟩

theorem queuePop_frame {queue : FrameQueue} (h : queue.count ≠ 0) (destination : Frame) :
    ∃ frame, (queuePop queue (some destination)).2.2 = some frame := by
  simp only [queuePop, if_neg h]
  exact ⟨_, rfl⟩

section Calls

theorem Frame.SameShape.valid_iff {f g : Frame} (h : f.SameShape g) : g.Valid ↔ f.Valid := by
  rw [Frame.Valid, Frame.Valid, h.interfaceType, h.payloadLength]
  exact and_congr_right fun _ => and_congr_right fun _ => forall_congr' h.messageId

theorem Frame.SameShape.admits_iff {f g : Frame} (h : f.SameShape g) (config : Config) :
    config.Admits g ↔ config.Admits f := by
  rw [Config.admits_iff, Config.admits_iff, h.valid_iff, h.interfaceType]

namespace Call.SameControl

variable {call : Call}

theorem of_receive {f : Frame} (h : SameControl (.receive (some f)) call) :
    ∃ g, call = .receive (some g) ∧ f.SameShape g := by
  cases h with
  | same => exact ⟨f, rfl, rfl, rfl, fun _ => Iff.rfl⟩
  | receive hshape => exact ⟨_, rfl, hshape⟩

theorem of_spiWrite {address value : U8} (h : SameControl (.spiWrite address value) call) :
    ∃ value', call = .spiWrite address value' := by
  cases h <;> exact ⟨_, rfl⟩

theorem of_spiRead {address byte : U8} (h : SameControl (.spiRead address (some byte)) call) :
    ∃ byte', call = .spiRead address (some byte') := by
  cases h <;> exact ⟨_, rfl⟩

theorem of_queuePop {f : Frame} (h : SameControl (.queuePop (some f)) call) :
    ∃ g, call = .queuePop (some g) := by
  cases h <;> exact ⟨_, rfl⟩

theorem of_telemetry {output : Vector U8 telemetrySize}
    (h : SameControl (.telemetry (some output)) call) :
    ∃ output', call = .telemetry (some output') := by
  cases h <;> exact ⟨_, rfl⟩

end Call.SameControl

/-- The fields of a record that are no data. -/
theorem control_record (c : Controller) (output : Vector U8 telemetrySize) :
    (Reply.telemetry telemetrySize ((writeTelemetry c output).map some)).control =
      ⟨none, telemetrySize, .ok (some { c.record with register := 0, crc := 0 })⟩ := by
  rw [writeTelemetry_eq]
  simp only [Reply.control, Except.map, Option.map_some, parseRecord_splice]

/-- A call with other data, on a controller with other data, is answered in the
same way and has the same effect. -/
theorem Answers.withData {c c' : Controller} {x : Exchange} (h : Answers c x c') {call : Call}
    (hcall : x.call.SameControl call) (entries : Vector Frame frameQueueCapacity)
    (registers : Vector U8 spiRegisterCount) :
    ∃ reply entries' registers',
      Answers (c.withData entries registers) ⟨call, reply⟩ (c'.withData entries' registers') ∧
        reply.control = x.reply.control := by
  cases h with
  | frameInvalid hinvalid =>
      obtain ⟨g, rfl, hshape⟩ := hcall.of_receive
      exact ⟨_, entries, registers, .frameInvalid (mt hshape.valid_iff.mp hinvalid), rfl⟩
  | interfaceDisabled hvalid hdisabled =>
      obtain ⟨g, rfl, hshape⟩ := hcall.of_receive
      rw [← hshape.interfaceType] at hdisabled
      exact ⟨_, entries, registers,
        .interfaceDisabled (hshape.valid_iff.mpr hvalid) hdisabled, rfl⟩
  | queueFull hadmits hfull =>
      obtain ⟨g, rfl, hshape⟩ := hcall.of_receive
      exact ⟨_, entries, registers, .queueFull ((hshape.admits_iff _).mpr hadmits) hfull, rfl⟩
  | @frameAccepted f hadmits hspace =>
      obtain ⟨g, rfl, hshape⟩ := hcall.of_receive
      obtain ⟨entries', hqueue⟩ := queuePush_entries c.queue entries f g
      have hpushed : (queuePush (c.withData entries registers).queue (some g)).2 =
          { (queuePush c.queue (some f)).2 with entries := entries' } := hqueue
      have hanswer : Answers (c.withData entries registers) _ _ :=
        .frameAccepted ((hshape.admits_iff _).mpr hadmits) hspace
      rw [hpushed, hshape.interfaceType] at hanswer
      exact ⟨_, entries', registers, hanswer, rfl⟩
  | writeOutOfRange haddress =>
      obtain ⟨value', rfl⟩ := hcall.of_spiWrite
      exact ⟨_, entries, registers, .writeOutOfRange haddress, rfl⟩
  | registerWritten haddress =>
      obtain ⟨value', rfl⟩ := hcall.of_spiWrite
      exact ⟨_, entries, _, .registerWritten haddress, rfl⟩
  | readOutOfRange haddress =>
      obtain ⟨byte', rfl⟩ := hcall.of_spiRead
      exact ⟨_, entries, registers, .readOutOfRange haddress, rfl⟩
  | registerRead haddress =>
      obtain ⟨byte', rfl⟩ := hcall.of_spiRead
      exact ⟨_, entries, registers, .registerRead haddress, rfl⟩
  | queueEmpty hempty =>
      obtain ⟨g, rfl⟩ := hcall.of_queuePop
      exact ⟨_, entries, registers, .queueEmpty hempty, rfl⟩
  | @framePopped f frame hne hframe =>
      obtain ⟨g, rfl⟩ := hcall.of_queuePop
      have hne' : (c.withData entries registers).queue.count ≠ 0 := hne
      obtain ⟨frame', hframe'⟩ := queuePop_frame hne' g
      have hpopped : (queuePop (c.withData entries registers).queue (some g)).2.1 =
          { (queuePop c.queue (some f)).2.1 with entries := entries } :=
        queuePop_entries c.queue entries f g
      have hanswer : Answers (c.withData entries registers) _ _ := .framePopped hne hframe'
      rw [hpopped] at hanswer
      exact ⟨_, entries, registers, hanswer, rfl⟩
  | recordWritten =>
      obtain ⟨output', rfl⟩ := hcall.of_telemetry
      refine ⟨_, entries, registers, .recordWritten, ?_⟩
      rw [control_record, control_record]
      rfl
  | _ =>
      cases hcall
      exact ⟨_, entries, registers, by constructor <;> assumption, rfl⟩

theorem step_sameControl {c c' : Controller} (h : c.SameControl c') {call call' : Call}
    (hcall : call.SameControl call') :
    (step c call).1.control = (step c' call').1.control ∧
      (step c call).2.SameControl (step c' call').2 := by
  obtain ⟨entries, registers, rfl⟩ := h
  obtain ⟨reply, entries', registers', hanswer, hreply⟩ :=
    (step_answers c call).withData hcall entries registers
  have hstep := hanswer.step_eq
  rw [hstep]
  exact ⟨hreply.symm, entries', registers', rfl⟩

theorem init_sameControl (memory memory' : Controller) {config : Config} (h : config.Valid) :
    (controllerInit memory (some config)).SameControl (controllerInit memory' (some config)) := by
  have hvalid : configIsValid (some config) = .ok true := h
  rw [controllerInit, controllerInit, if_pos hvalid, if_pos hvalid]
  exact ⟨memory'.queue.entries, _, rfl⟩

end Calls

/-- Runs whose calls differ in data at most get the same statuses and, but for
the register and the checksum, the same records, and end with controllers that
differ in data at most. -/
theorem run_data_independent (memory memory' : Controller) (config : Config)
    (hconfig : config.Valid) (calls calls' : List Call)
    (hcalls : List.Forall₂ Call.SameControl calls calls') :
    let r := run memory config calls
    let r' := run memory' config calls'
    r.history.map (fun x => x.reply.control) = r'.history.map (fun x => x.reply.control) ∧
      r.state.SameControl r'.state :=
  Machine.run_relates step step Controller.SameControl Call.SameControl Reply.control
    Reply.control (init_sameControl memory memory' hconfig)
    (fun _ _ _ _ hstate hcall => step_sameControl hstate hcall) hcalls

/-- Two CAN frames with different identifiers, and a register behind them. -/
theorem run_data_independent_can :
    let frame := { zeroFrame with interfaceType := interfaceCan }
    (run zeroController defaultConfig
        [.receive (some frame), .spiWrite 0 1]).state.SameControl
      (run zeroController defaultConfig
        [.receive (some { frame with messageId := 0x7ff }), .spiWrite 0 255]).state := by
  intro frame
  have hshape : frame.SameShape { frame with messageId := 0x7ff } :=
    ⟨rfl, rfl, fun _ => iff_of_true (by decide) (by decide)⟩
  have hruns := run_data_independent zeroController zeroController defaultConfig
    defaultConfig_valid [.receive (some frame), .spiWrite 0 1]
    [.receive (some { frame with messageId := 0x7ff }), .spiWrite 0 255]
    (.cons (.receive hshape) (.cons .spiWrite .nil))
  exact hruns.2

end Esqh
