import Esqh.Firmware.Commands
import Esqh.Firmware.Answers

/-!
The two values that commands write: the setpoint and the registers of the SPI
model. Over whole runs each is what the last accepted write put there, and the
setpoint is within its limits from the first accepted command on.
-/

namespace Esqh

/-- The setpoint that an exchange commanded. -/
def acceptedSetpoint (x : Exchange) : Option Int16 :=
  match x.call, x.reply with
  | .setpoint _ value, .status .ok => some value
  | _, _ => none

/-- What an exchange wrote to a register. -/
def registerWrite (address : U8) (x : Exchange) : Option U8 :=
  match x.call, x.reply with
  | .spiWrite written value, .status .ok => if written = address then some value else none
  | _, _ => none

/-- The setpoint commanded last, or zero. -/
def lastSetpoint (history : History) : Int16 := (history.findSome? acceptedSetpoint).getD 0

/-- The byte written last to a register, or zero. -/
def lastWritten (address : U8) (history : History) : U8 :=
  (history.findSome? (registerWrite address)).getD 0

theorem lastSetpoint_cons (x : Exchange) (history : History) :
    lastSetpoint (x :: history) = (acceptedSetpoint x).getD (lastSetpoint history) := by
  rw [lastSetpoint, List.findSome?_cons]
  cases acceptedSetpoint x <;> rfl

theorem lastWritten_cons (address : U8) (x : Exchange) (history : History) :
    lastWritten address (x :: history) =
      (registerWrite address x).getD (lastWritten address history) := by
  rw [lastWritten, List.findSome?_cons]
  cases registerWrite address x <;> rfl

namespace Answers

variable {c c' : Controller} {x : Exchange}

/-- Only an accepted setpoint changes the setpoint. -/
theorem setpoint (h : Answers c x c') :
    c'.setpoint = (acceptedSetpoint x).getD c.setpoint := by
  cases h <;> rfl

/-- Only an accepted write changes a register, and only its own. -/
theorem spiRegisters (h : Answers c x c') {address : U8}
    (haddress : address.toNat < spiRegisterCount) :
    c'.spiRegisters[address.toNat] =
      (registerWrite address x).getD c.spiRegisters[address.toNat] := by
  cases h with
  | @registerWritten written value hwritten =>
      simp only [registerWrite, Vector.getElem_setIfInBounds]
      by_cases hsame : written = address
      · rw [if_pos hsame, if_pos (congrArg BitVec.toNat hsame)]
        rfl
      · rw [if_neg hsame, if_neg (fun heq => hsame (BitVec.eq_of_toNat_eq heq))]
        rfl
  | _ => rfl

/-- The guards that an accepted setpoint has passed. -/
theorem of_setpoint_ok {sequence : U16} {value : Int16}
    (h : Answers c ⟨.setpoint sequence value, .status .ok⟩ c') :
    c.state = .operational ∧ c.lastCommandSequence < sequence ∧
      c.config.minimumSetpoint ≤ value ∧ value ≤ c.config.maximumSetpoint := by
  cases h with
  | setpointAccepted hstate hfresh hminimum hmaximum =>
      exact ⟨hstate, hfresh, hminimum, hmaximum⟩

theorem of_setpoint_errState {sequence : U16} {value : Int16}
    (h : Answers c ⟨.setpoint sequence value, .status .errState⟩ c') : c' = c := by
  cases h
  rfl

end Answers

/-- The registers and the setpoint hold what the history wrote last. -/
structure Controller.HoldsLast (history : History) (c : Controller) : Prop where
  setpoint : c.setpoint = lastSetpoint history
  registers : ∀ address : U8, (h : address.toNat < spiRegisterCount) →
    c.spiRegisters[address.toNat] = lastWritten address history

theorem run_holdsLast (memory : Controller) {config : Config} (hconfig : config.Valid)
    (calls : List Call) :
    (run memory config calls).state.HoldsLast (run memory config calls).history := by
  refine run_keeps memory config (fun history c => c.HoldsLast history) ?_ ?_ calls
  · have hvalid : configIsValid (some config) = .ok true := hconfig
    rw [controllerInit, if_pos hvalid]
    refine ⟨rfl, fun address haddress => ?_⟩
    exact Vector.getElem_replicate haddress
  · intro history c x c' h hanswer
    constructor
    · rw [lastSetpoint_cons, ← h.setpoint]
      exact hanswer.setpoint
    · intro address haddress
      rw [lastWritten_cons, ← h.registers address haddress]
      exact hanswer.spiRegisters haddress

/-- A setpoint is accepted by a healthy operational controller only, within
the limits and with a fresh number. -/
theorem run_setpoint_ok (memory : Controller) {config : Config} (hconfig : config.Valid)
    (calls : List Call) {sequence : U16} {value : Int16}
    (hok : (setpoint (run memory config calls).state sequence value).1 = .ok) :
    (run memory config calls).state.state = .operational ∧
      (run memory config calls).state.faultBitmap = 0 ∧
      config.minimumSetpoint ≤ value ∧ value ≤ config.maximumSetpoint ∧
      ∀ earlier ∈ consumedSequences (run memory config calls).history, earlier < sequence := by
  have hanswer := step_answers_setpoint (run memory config calls).state sequence value
  rw [hok] at hanswer
  obtain ⟨hstate, hfresh, hminimum, hmaximum⟩ := hanswer.of_setpoint_ok
  rw [run_config memory hconfig calls] at hminimum hmaximum
  have hsound := run_sound memory hconfig calls
  have hincreasing := run_increasing memory config calls
  refine ⟨hstate, (hsound.operational hstate).2.2, hminimum, hmaximum, ?_⟩
  intro earlier hmem
  exact Nat.lt_of_le_of_lt (hincreasing.le_last earlier hmem) hfresh

/-- A register reads as what was written last. -/
theorem Controller.HoldsLast.spiRead {history : History} {c : Controller}
    (h : c.HoldsLast history) {address : U8} (haddress : address.toNat < spiRegisterCount)
    (byte : U8) :
    spiRead c address (some byte) = (.ok, some (lastWritten address history)) := by
  have hread : Esqh.spiRead c address (some byte) =
      (.ok, some (c.spiRegisters[address.toNat]?.getD byte)) := if_neg (Nat.not_le_of_lt haddress)
  rw [hread, Vector.getElem?_eq_getElem haddress, Option.getD_some, h.registers address haddress]

/-- The setpoint is the last one accepted, and each was accepted by a healthy
operational controller, within the limits and with a fresh number. A register
reads as it was last written. No other call changes either, and a setpoint in
the wrong mode changes nothing at all. -/
theorem run_last_accepted (memory : Controller) (config : Config) (hconfig : config.Valid)
    (calls : List Call) :
    let r := run memory config calls
    r.state.setpoint = lastSetpoint r.history ∧
    (∀ before sequence value after, calls = before ++ .setpoint sequence value :: after →
      (setpoint (run memory config before).state sequence value).1 = .ok →
      (run memory config before).state.state = .operational ∧
      (run memory config before).state.faultBitmap = 0 ∧
      config.minimumSetpoint ≤ value ∧ value ≤ config.maximumSetpoint ∧
      ∀ earlier ∈ consumedSequences (run memory config before).history, earlier < sequence) ∧
    (∀ address : U8, address.toNat < spiRegisterCount → ∀ byte,
      spiRead r.state address (some byte) = (.ok, some (lastWritten address r.history))) ∧
    (∀ call,
      (acceptedSetpoint ⟨call, (step r.state call).1⟩ = none →
        (step r.state call).2.setpoint = r.state.setpoint) ∧
      ∀ address : U8, (h : address.toNat < spiRegisterCount) →
        registerWrite address ⟨call, (step r.state call).1⟩ = none →
        (step r.state call).2.spiRegisters[address.toNat] = r.state.spiRegisters[address.toNat]) ∧
    (∀ sequence value, (setpoint r.state sequence value).1 = .errState →
      (setpoint r.state sequence value).2 = r.state) := by
  intro r
  have hlast : r.state.HoldsLast r.history := run_holdsLast memory hconfig calls
  refine ⟨hlast.setpoint, ?_, ?_, ?_, ?_⟩
  · intro before sequence value _ _ hok
    exact run_setpoint_ok memory hconfig before hok
  · intro address haddress byte
    exact hlast.spiRead haddress byte
  · intro call
    have hanswer := step_answers r.state call
    constructor
    · intro hnone
      rw [hanswer.setpoint, hnone]
      rfl
    · intro address haddress hnone
      rw [hanswer.spiRegisters haddress, hnone]
      rfl
  · intro sequence value hstate
    have hanswer := step_answers_setpoint r.state sequence value
    rw [hstate] at hanswer
    exact hanswer.of_setpoint_errState

/-- The second of two setpoints stays, through a fault. -/
theorem run_last_accepted_twice :
    (run zeroController defaultConfig
      [.markSelfTestPassed, .heartbeat 1, .setpoint 2 7, .setpoint 3 (-5), .spiWrite 16 0,
        .setpoint 4 9]).state.setpoint = -5 := by
  rw [(run_last_accepted zeroController defaultConfig defaultConfig_valid _).1]
  decide

/-! The limits. -/

/-- The limits of a configuration enclose a value. -/
def Config.Encloses (config : Config) (value : Int16) : Prop :=
  config.minimumSetpoint ≤ value ∧ value ≤ config.maximumSetpoint

instance Config.decidableEncloses (config : Config) (value : Int16) :
    Decidable (config.Encloses value) :=
  inferInstanceAs (Decidable (_ ∧ _))

theorem run_accepted_encloses (memory : Controller) {config : Config} (hconfig : config.Valid)
    (calls : List Call) :
    ∀ x ∈ (run memory config calls).history, ∀ value, acceptedSetpoint x = some value →
      config.Encloses value := by
  have hboth := run_keeps memory config
    (fun history c => c.config = config ∧
      ∀ x ∈ history, ∀ value, acceptedSetpoint x = some value → config.Encloses value)
    ⟨run_config memory hconfig [], by simp⟩ (by
      intro history c x c' h hanswer
      refine ⟨hanswer.config.trans h.1, ?_⟩
      rw [List.forall_mem_cons]
      refine ⟨?_, h.2⟩
      intro value haccepted
      cases hanswer with
      | setpointAccepted _ _ hminimum hmaximum =>
          cases haccepted
          rw [h.1] at hminimum hmaximum
          exact ⟨hminimum, hmaximum⟩
      | _ => cases haccepted) calls
  exact hboth.2

theorem lastSetpoint_cases (history : History) :
    (∃ x ∈ history, acceptedSetpoint x = some (lastSetpoint history)) ∨
      (lastSetpoint history = 0 ∧ ∀ x ∈ history, acceptedSetpoint x = none) := by
  cases h : history.findSome? acceptedSetpoint with
  | none =>
      right
      exact ⟨by rw [lastSetpoint, h]; rfl, List.findSome?_eq_none_iff.mp h⟩
  | some value =>
      left
      obtain ⟨x, hx, haccepted⟩ := List.exists_of_findSome?_eq_some h
      exact ⟨x, hx, by rw [lastSetpoint, h]; exact haccepted⟩

/-- The setpoint of a run is within the limits exactly if a setpoint has been
accepted or the limits enclose zero. Before the first accepted one it is the
zero of the initialisation. -/
theorem run_setpoint_enclosed_iff (memory : Controller) (config : Config)
    (hconfig : config.Valid) (calls : List Call) :
    let r := run memory config calls
    (config.Encloses r.state.setpoint ↔
      (∃ x ∈ r.history, acceptedSetpoint x ≠ none) ∨ config.Encloses 0) ∧
    ((∀ x ∈ r.history, acceptedSetpoint x = none) → r.state.setpoint = 0) := by
  intro r
  have hsetpoint : r.state.setpoint = lastSetpoint r.history :=
    (run_holdsLast memory hconfig calls).setpoint
  have hencloses := run_accepted_encloses memory hconfig calls
  rw [hsetpoint]
  rcases lastSetpoint_cases r.history with ⟨x, hx, haccepted⟩ | ⟨hzero, hnone⟩
  · have hsome : acceptedSetpoint x ≠ none := by simp [haccepted]
    refine ⟨iff_of_true (hencloses x hx _ haccepted) (.inl ⟨x, hx, hsome⟩), ?_⟩
    intro hall
    exact absurd (hall x hx) hsome
  · rw [hzero]
    refine ⟨(or_iff_right ?_).symm, fun _ => rfl⟩
    rintro ⟨x, hx, hsome⟩
    exact hsome (hnone x hx)

theorem run_setpoint_enclosed_iff_default :
    defaultConfig.Encloses (run zeroController defaultConfig [.tick]).state.setpoint :=
  (run_setpoint_enclosed_iff zeroController defaultConfig defaultConfig_valid [.tick]).1.mpr
    (.inr (by decide))

/-- The limits from one to two are valid, and the initial setpoint is below them. -/
theorem not_run_setpoint_enclosed :
    ¬∀ (memory : Controller) (config : Config), config.Valid → ∀ calls,
      config.minimumSetpoint ≤ (run memory config calls).state.setpoint ∧
        (run memory config calls).state.setpoint ≤ config.maximumSetpoint := by
  intro h
  have hlow := (h zeroController { defaultConfig with minimumSetpoint := 1, maximumSetpoint := 2 }
    (by decide) []).1
  exact absurd hlow (by decide)

end Esqh
