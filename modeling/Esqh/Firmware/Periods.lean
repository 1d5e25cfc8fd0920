import Esqh.Firmware.Answers
import Mathlib.Algebra.Group.Nat.Defs

/-!
The period counters over whole runs. A down-counter that reloads divides the
clock; with the wrapping totals it gives the exact number of periods that have
passed, in every mode and whatever else is called.
-/

namespace Esqh

def Call.isTick : Call → Bool
  | .tick => true
  | _ => false

/-- The number of ticks among some calls. -/
def ticks (calls : List Call) : Nat := calls.countP Call.isTick

/-- A down-counter that is reloaded when it runs out, and the number of times
it has. -/
structure Divider where
  counter : U8
  releases : U32

def Divider.tick (period : U8) (d : Divider) : Divider :=
  { counter := if d.counter - 1 = 0 then period else d.counter - 1
    releases := if d.counter - 1 = 0 then d.releases + 1 else d.releases }

/-- After `n` ticks the counter shows what is left of the period, and the
releases count the whole periods. -/
structure Divider.Divides (d : Divider) (period : U8) (n : Nat) : Prop where
  counter : d.counter.toNat = period.toNat - n % period.toNat
  releases : d.releases = BitVec.ofNat 32 (n / period.toNat)

theorem Divider.divides_start {period : U8} (hperiod : 0 < period.toNat) :
    Divider.Divides ⟨period, 0⟩ period 0 where
  counter := by simp
  releases := by simp [Nat.div_eq_of_lt hperiod]

theorem Divider.tick_of_zero {d : Divider} {period : U8} (h : d.counter - 1 = 0) :
    d.tick period = ⟨period, d.releases + 1⟩ := by
  rw [tick, if_pos h, if_pos h]

theorem Divider.tick_of_ne_zero {d : Divider} {period : U8} (h : ¬d.counter - 1 = 0) :
    d.tick period = ⟨d.counter - 1, d.releases⟩ := by
  rw [tick, if_neg h, if_neg h]

/-- The counter never stands at zero before a tick, so the decrement does not
wrap. -/
theorem Divider.Divides.counter_sub_one {d : Divider} {period : U8} {n : Nat}
    (h : d.Divides period n) (hperiod : 0 < period.toNat) :
    (d.counter - 1).toNat = period.toNat - (n % period.toNat + 1) := by
  have hone : (1 : U8).toNat = 1 := rfl
  have hrest : n % period.toNat < period.toNat := Nat.mod_lt n hperiod
  have hsmall : period.toNat < 256 := period.isLt
  rw [BitVec.toNat_sub, hone, h.counter]
  omega

theorem Divider.Divides.tick {d : Divider} {period : U8} {n : Nat} (h : d.Divides period n)
    (hperiod : 0 < period.toNat) : (d.tick period).Divides period (n + 1) := by
  have hdecrement := h.counter_sub_one hperiod
  have hrest : n % period.toNat < period.toNat := Nat.mod_lt n hperiod
  have hsplit : period.toNat * (n / period.toNat) + n % period.toNat = n := Nat.div_add_mod n _
  by_cases hzero : d.counter - 1 = 0
  · have hlast : n % period.toNat + 1 = period.toNat := by
      rw [hzero] at hdecrement
      have hnone : (0 : U8).toNat = 0 := rfl
      omega
    have hnext : n + 1 = period.toNat * (n / period.toNat + 1) := by
      rw [Nat.mul_add, Nat.mul_one]
      omega
    rw [Divider.tick_of_zero hzero]
    constructor
    · rw [hnext, Nat.mul_mod_right, Nat.sub_zero]
    · rw [hnext, Nat.mul_div_cancel_left _ hperiod, BitVec.ofNat_add, ← h.releases]
      rfl
  · have hmore : n % period.toNat + 1 < period.toNat := by
      have hne : (d.counter - 1).toNat ≠ 0 := fun h => hzero (BitVec.eq_of_toNat_eq h)
      omega
    have hmod : (n + 1) % period.toNat = n % period.toNat + 1 := by
      rw [← Nat.mod_add_mod, Nat.mod_eq_of_lt hmore]
    have hdiv : (n + 1) / period.toNat = n / period.toNat := by
      have hsplit' : period.toNat * ((n + 1) / period.toNat) + (n + 1) % period.toNat = n + 1 :=
        Nat.div_add_mod (n + 1) _
      apply Nat.eq_of_mul_eq_mul_left hperiod
      omega
    rw [Divider.tick_of_ne_zero hzero]
    constructor
    · rw [hmod]
      exact hdecrement
    · rw [hdiv]
      exact h.releases

/-- The part of the controller that counts time. -/
structure Periods where
  elapsedMs : U32
  task1msCount : U32
  every10ms : Divider
  every100ms : Divider

def periods (c : Controller) : Periods :=
  { elapsedMs := c.elapsedMs
    task1msCount := c.task1msCount
    every10ms := ⟨c.scheduler10ms, c.task10msCount⟩
    every100ms := ⟨c.scheduler100ms, c.task100msCount⟩ }

def Periods.tick (p : Periods) : Periods :=
  { elapsedMs := p.elapsedMs + 1
    task1msCount := p.task1msCount + 1
    every10ms := p.every10ms.tick 10
    every100ms := p.every100ms.tick 100 }

structure Periods.Counts (p : Periods) (n : Nat) : Prop where
  elapsedMs : p.elapsedMs = BitVec.ofNat 32 n
  task1msCount : p.task1msCount = BitVec.ofNat 32 n
  every10ms : p.every10ms.Divides 10 n
  every100ms : p.every100ms.Divides 100 n

theorem Periods.Counts.tick {p : Periods} {n : Nat} (h : p.Counts n) : p.tick.Counts (n + 1) where
  elapsedMs := by
    rw [Periods.tick, h.elapsedMs]
    exact (BitVec.ofNat_add n 1).symm
  task1msCount := by
    rw [Periods.tick, h.task1msCount]
    exact (BitVec.ofNat_add n 1).symm
  every10ms := h.every10ms.tick (by decide)
  every100ms := h.every100ms.tick (by decide)

/-- A tick advances the counters, whether or not it trips the watchdog. No
other call touches them. -/
theorem Answers.periods {c c' : Controller} {x : Exchange} (h : Answers c x c') :
    periods c' = if x.call.isTick then (periods c).tick else periods c := by
  cases h <;> rfl

theorem periods_controllerInit (memory : Controller) {config : Config} (h : config.Valid) :
    (periods (controllerInit memory (some config))).Counts 0 := by
  have hvalid : configIsValid (some config) = .ok true := h
  have h10 : Divider.Divides ⟨10, 0⟩ 10 0 := Divider.divides_start (by decide)
  have h100 : Divider.Divides ⟨100, 0⟩ 100 0 := Divider.divides_start (by decide)
  simp only [controllerInit, if_pos hvalid]
  exact ⟨rfl, rfl, h10, h100⟩

theorem run_counts (memory : Controller) {config : Config} (hconfig : config.Valid)
    (calls : List Call) : (periods (run memory config calls).state).Counts (ticks calls) := by
  have hhistory := run_keeps memory config
    (fun history c => (periods c).Counts (ticks (history.map Machine.Exchange.call)))
    (periods_controllerInit memory hconfig) (by
      intro history c x c' h hanswer
      rw [hanswer.periods, List.map_cons, ticks, List.countP_cons]
      cases x.call.isTick with
      | true => exact h.tick
      | false => exact h) calls
  rwa [run, Machine.run_calls, ticks, List.countP_reverse] at hhistory

/-- The period accounting of every run is exact: the totals count the ticks and
the whole periods modulo `2 ^ 32`, and the down-counters show what is left of
the running period, which is never nothing. -/
theorem run_periods_exact (memory : Controller) (config : Config) (hconfig : config.Valid)
    (calls : List Call) :
    let c := (run memory config calls).state
    let n := ticks calls
    c.task1msCount = BitVec.ofNat 32 n ∧
    c.task10msCount = BitVec.ofNat 32 (n / 10) ∧
    c.task100msCount = BitVec.ofNat 32 (n / 100) ∧
    c.elapsedMs = BitVec.ofNat 32 n ∧
    c.scheduler10ms.toNat = 10 - n % 10 ∧
    c.scheduler100ms.toNat = 100 - n % 100 ∧
    c.scheduler10ms ≠ 0 ∧ c.scheduler100ms ≠ 0 := by
  intro c n
  have h : (periods c).Counts n := run_counts memory hconfig calls
  have h10 : c.scheduler10ms.toNat = 10 - n % 10 := h.every10ms.counter
  have h100 : c.scheduler100ms.toNat = 100 - n % 100 := h.every100ms.counter
  refine ⟨h.task1msCount, h.every10ms.releases, h.every100ms.releases, h.elapsedMs, h10, h100,
    ?_, ?_⟩
  · intro hzero
    rw [hzero] at h10
    simp only [BitVec.ofNat_eq_ofNat, BitVec.toNat_ofNat, Nat.zero_mod] at h10
    omega
  · intro hzero
    rw [hzero] at h100
    simp only [BitVec.ofNat_eq_ofNat, BitVec.toNat_ofNat, Nat.zero_mod] at h100
    omega

/-- Twelve ticks around a critical fault leave eight of the second ten. -/
theorem run_periods_exact_safe :
    (run zeroController defaultConfig
      (List.replicate 6 .tick ++ .latchFault faultCritical true ::
        List.replicate 6 .tick)).state.scheduler10ms.toNat = 8 := by
  rw [(run_periods_exact zeroController defaultConfig defaultConfig_valid _).2.2.2.2.1]
  decide

end Esqh
