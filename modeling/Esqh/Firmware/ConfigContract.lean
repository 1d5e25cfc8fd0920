import Esqh.Firmware.BoundedText
import Esqh.Firmware.Message
import Esqh.Firmware.Supervisor

/-!
Which configurations a controller is initialised with: the validity check
against what it stands for, and the default configuration.
-/

namespace Esqh

open Memory

/-- The limits of a configuration. A text counts up to its first zero byte, or
up to the end of its field if there is none. -/
structure Config.Acceptable (config : Config) : Prop where
  timeout_pos : 1 ≤ config.watchdogTimeoutMs.toNat
  timeout_le : config.watchdogTimeoutMs.toNat ≤ 1000
  setpoints : config.minimumSetpoint < config.maximumSetpoint
  someEnabled : ∃ i : Interface, config.enabledInterfaceMask &&& enabledBit i.code ≠ 0
  noOtherBit : ∀ i, 4 ≤ i → config.enabledInterfaceMask.getLsbD i = false
  version : characters config.version = characters (text esqhVersion)
  baseline : characters config.baseline = characters (text esqhBaseline)

section Mask

variable (mask : U32)

theorem and_interfaces_eq_zero_iff :
    mask &&& 0x0f = 0 ↔ ∀ i : Interface, mask &&& enabledBit i.code = 0 := by
  have hbits : (0x0f : U32) = enabledBit Interface.uart.code ||| enabledBit Interface.spi.code |||
      enabledBit Interface.can.code ||| enabledBit Interface.ethernet.code := by decide
  have hsplit (first second : U32) : first ||| second = 0 ↔ first = 0 ∧ second = 0 :=
    BitVec.or_eq_zero_iff
  rw [hbits]
  simp only [BitVec.and_or_distrib_left, hsplit]
  constructor
  · intro ⟨⟨⟨huart, hspi⟩, hcan⟩, hethernet⟩ i
    cases i with
    | uart => exact huart
    | spi => exact hspi
    | can => exact hcan
    | ethernet => exact hethernet
  · intro h
    exact ⟨⟨⟨h .uart, h .spi⟩, h .can⟩, h .ethernet⟩

theorem and_not_interfaces_eq_zero_iff :
    mask &&& ~~~0x0f = 0 ↔ ∀ i, 4 ≤ i → mask.getLsbD i = false := by
  have hbit (i : Nat) : (mask &&& ~~~0x0f).getLsbD i =
      (mask.getLsbD i && (decide (i < 32) && !(decide (i < 32) && decide (i < 4)))) := by
    have hones : (0x0f : U32) = BitVec.ofNat 32 (2 ^ 4 - 1) := rfl
    rw [BitVec.getLsbD_and, BitVec.getLsbD_not, hones, BitVec.getLsbD_ofNat,
      Nat.testBit_two_pow_sub_one]
  constructor
  · intro h i hi
    have hzero : (mask &&& ~~~0x0f).getLsbD i = false := by
      rw [h]
      exact BitVec.getLsbD_zero
    rw [hbit] at hzero
    rcases Nat.lt_or_ge i 32 with hin | hout
    · simpa [hin, Nat.not_lt.mpr hi] using hzero
    · exact BitVec.getLsbD_of_ge mask i hout
  · intro h
    apply BitVec.eq_of_getLsbD_eq
    intro i hi
    apply (hbit i).trans
    rcases Nat.lt_or_ge i 4 with hlow | hhigh
    · simp [hi, hlow]
    · simp [h i hhigh]

end Mask

section Texts

/-- A field as long as the comparison is compared as a text. -/
theorem textEqual_field {n m : Nat} (field : Vector U8 n) (expected : Vector U8 m)
    (hnul : 0 ∈ expected.toList) (hshort : (characters expected).length ≤ n) :
    textEqual field expected n = .ok (decide (characters field = characters expected)) := by
  rw [textEqual_eq field expected n hnul (Nat.le_refl n), List.take_of_length_le hshort,
    List.take_of_length_le (by simp)]
  rfl

end Texts

/-- The guards of the check, one after the other. -/
theorem Config.acceptable_iff (config : Config) :
    config.Acceptable ↔
      ¬(config.watchdogTimeoutMs = 0 ∨ config.watchdogTimeoutMs > 1000) ∧
      ¬config.minimumSetpoint ≥ config.maximumSetpoint ∧
      ¬(config.enabledInterfaceMask &&& 0x0f = 0 ∨
        config.enabledInterfaceMask &&& ~~~0x0f ≠ 0) ∧
      characters config.version = characters (text esqhVersion) ∧
      characters config.baseline = characters (text esqhBaseline) := by
  have hzero : config.watchdogTimeoutMs = 0 ↔ config.watchdogTimeoutMs.toNat = 0 :=
    ⟨fun h => congrArg BitVec.toNat h, fun h => BitVec.eq_of_toNat_eq h⟩
  have hlate : config.watchdogTimeoutMs > 1000 ↔ 1000 < config.watchdogTimeoutMs.toNat := Iff.rfl
  rw [hzero, hlate, and_interfaces_eq_zero_iff, ne_eq, and_not_interfaces_eq_zero_iff, not_or,
    not_or, not_not, not_forall, ge_iff_le, Int16.not_le]
  constructor
  · intro h
    have hpos := h.timeout_pos
    have hle := h.timeout_le
    exact ⟨⟨by omega, by omega⟩, h.setpoints, ⟨h.someEnabled, h.noOtherBit⟩, h.version, h.baseline⟩
  · intro ⟨⟨hpos, hle⟩, hsetpoints, ⟨hsome, hother⟩, hversion, hbaseline⟩
    exact ⟨by omega, by omega, hsetpoints, hsome, hother, hversion, hbaseline⟩

/-- The check returns, without reading past a text, and accepts what is
acceptable. -/
theorem configIsValid_returns (config : Config) :
    ∃ valid, configIsValid (some config) = .ok valid ∧ (valid = true ↔ config.Acceptable) := by
  have hversion := textEqual_field config.version (text esqhVersion) (by decide) (by decide)
  have hbaseline := textEqual_field config.baseline (text esqhBaseline) (by decide) (by decide)
  rw [config.acceptable_iff]
  simp only [configIsValid, hversion, hbaseline, ok_bind]
  split
  next h => exact ⟨false, rfl, iff_of_false Bool.false_ne_true fun hall => hall.1 h⟩
  next htimeout =>
    split
    next h => exact ⟨false, rfl, iff_of_false Bool.false_ne_true fun hall => hall.2.1 h⟩
    next hsetpoints =>
      split
      next h => exact ⟨false, rfl, iff_of_false Bool.false_ne_true fun hall => hall.2.2.1 h⟩
      next hmask =>
        split
        next h =>
          refine ⟨_, rfl, ?_⟩
          rw [decide_eq_true_eq] at h ⊢
          exact ⟨fun hbase => ⟨htimeout, hsetpoints, hmask, h, hbase⟩, fun hall => hall.2.2.2.2⟩
        next h =>
          refine ⟨false, rfl, iff_of_false Bool.false_ne_true fun hall => h ?_⟩
          exact decide_eq_true hall.2.2.2.1

section Valid

variable (config : Config)

theorem Config.valid_iff : config.Valid ↔ config.Acceptable := by
  obtain ⟨valid, hreturns, hiff⟩ := configIsValid_returns config
  rw [Config.Valid, hreturns, Except.ok.injEq]
  exact hiff

/-- A configuration that the check refuses leaves the memory as it was. -/
theorem controllerInit_refused (memory : Controller) (h : ¬config.Acceptable) :
    controllerInit memory (some config) = memory := by
  have hinvalid : ¬configIsValid (some config) = .ok true := mt config.valid_iff.mp h
  rw [controllerInit, if_neg hinvalid]

end Valid

/-- The default configuration does not depend on what was in the memory. -/
theorem configDefault_eq (config : Config) :
    configDefault (some config) = .ok (some defaultConfig) := by
  have hversion : copyText (some config.version) 8 (text esqhVersion) =
      .ok (some defaultConfig.version) := by
    rw [copyText_eq config.version _ 8 (by decide) (by decide) (by decide)]
    apply congrArg (fun copied => Except.ok (some copied))
    apply Vector.toList_inj.mp
    rw [toList_splice_zero _ _ (length_padded _ _)]
    rfl
  have hbaseline : copyText (some config.baseline) 20 (text esqhBaseline) =
      .ok (some defaultConfig.baseline) := by
    rw [copyText_eq config.baseline _ 20 (by decide) (by decide) (by decide)]
    apply congrArg (fun copied => Except.ok (some copied))
    apply Vector.toList_inj.mp
    rw [toList_splice_zero _ _ (length_padded _ _)]
    rfl
  simp only [configDefault, hversion, hbaseline]
  rfl

/-- The check decides the limits, the initialisation installs what is within
them and nothing else, no run changes what it installed, and the default
configuration is within them wherever it is written. -/
theorem config_contract (config : Config) :
    (∃ valid, configIsValid (some config) = .ok valid ∧ (valid = true ↔ config.Acceptable)) ∧
    (config.Acceptable → ∀ memory calls, (run memory config calls).state.config = config) ∧
    (¬config.Acceptable → ∀ memory, controllerInit memory (some config) = memory) ∧
    ∃ filled, configDefault (some config) = .ok (some filled) ∧ filled.Acceptable := by
  refine ⟨configIsValid_returns config, ?_, ?_, ?_⟩
  · intro hacceptable memory calls
    exact run_config memory (config.valid_iff.mpr hacceptable) calls
  · intro hrefused memory
    exact controllerInit_refused config memory hrefused
  · exact ⟨defaultConfig, configDefault_eq config,
      defaultConfig.valid_iff.mp defaultConfig_valid⟩

end Esqh
