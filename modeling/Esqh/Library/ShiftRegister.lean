import Mathlib.Data.List.OfFn
import Mathlib.Logic.Function.Iterate
import Mathlib.Tactic.Common

/-!
Feedback shift registers over bit vectors of any width, fed most significant
bit first: the remainder computation of a cyclic redundancy check, for any
generator and any start value. The register is linear in its state and input,
an odd generator makes its step injective, and feeding at most a register's
width of bits is a fixed number of steps from the state with those bits added
at its top. Detection of error bursts follows from these three facts.
-/

namespace ShiftRegister

variable {w : Nat}

/-- One step without input: every bit moves up one place, and the generator is
subtracted when a one leaves the register. -/
def shift (g s : BitVec w) : BitVec w :=
  if s.getMsbD 0 then (s <<< 1) ^^^ g else s <<< 1

/-- A single bit in the top place. -/
def lead (b : Bool) : BitVec w := if b then BitVec.twoPow w (w - 1) else 0#w

/-- At most `w` bits from the top place down, first bit first. -/
def align : List Bool → BitVec w
  | [] => 0#w
  | b :: bits => lead b ^^^ (align bits >>> 1)

def feed (g s : BitVec w) (b : Bool) : BitVec w := shift g (s ^^^ lead b)

def feedAll (g s : BitVec w) (bits : List Bool) : BitVec w := bits.foldl (feed g) s

theorem getMsbD_shift (g s : BitVec w) (i : Nat) :
    (shift g s).getMsbD i = (s.getMsbD (i + 1) ^^ (s.getMsbD 0 && g.getMsbD i)) := by
  unfold shift
  split <;> simp_all

theorem getMsbD_lead (b : Bool) (i : Nat) :
    (lead b : BitVec w).getMsbD i = (b && decide (i = 0 ∧ 0 < w)) := by
  cases b with
  | false => simp [lead]
  | true =>
      simp only [lead, if_true, BitVec.getMsbD_eq_getLsbD, BitVec.getLsbD_twoPow, Bool.true_and]
      rw [Bool.eq_iff_iff]
      simp
      omega

theorem getMsbD_align (bits : List Bool) (i : Nat) :
    (align bits : BitVec w).getMsbD i = (decide (i < w) && bits.getD i false) := by
  induction bits generalizing i with
  | nil => simp [align]
  | cons b bits ih =>
      cases i with
      | zero => simp [align, getMsbD_lead, Bool.and_comm]
      | succ i =>
          simp only [align, BitVec.getMsbD_xor, getMsbD_lead, BitVec.getMsbD_ushiftRight, ih]
          by_cases hi : i + 1 < w
          · simp [hi, show i < w by omega]
          · simp [hi]

theorem shift_xor (g s t : BitVec w) : shift g (s ^^^ t) = shift g s ^^^ shift g t := by
  apply BitVec.eq_of_getMsbD_eq
  intro i _
  simp only [getMsbD_shift, BitVec.getMsbD_xor]
  cases s.getMsbD 0 <;> cases t.getMsbD 0 <;> cases g.getMsbD i <;> simp

@[simp] theorem shift_zero (g : BitVec w) : shift g 0#w = 0#w := by
  simp [shift]

/-- With an odd generator nothing but the zero register steps to zero: a one
that leaves at the top re-enters at the bottom. -/
theorem shift_eq_zero_iff (g s : BitVec w) (hg : g.getMsbD (w - 1) = true) :
    shift g s = 0#w ↔ s = 0#w := by
  constructor
  · intro h
    have hbit (i : Nat) : (s.getMsbD (i + 1) ^^ (s.getMsbD 0 && g.getMsbD i)) = false := by
      rw [← getMsbD_shift, h]
      simp
    have htop : s.getMsbD 0 = false := by
      have hlast := hbit (w - 1)
      rw [hg, BitVec.getMsbD_of_ge s (w - 1 + 1) (by omega)] at hlast
      simpa using hlast
    apply BitVec.eq_of_getMsbD_eq
    intro i _
    cases i with
    | zero => simpa using htop
    | succ i => simpa [htop] using hbit i
  · rintro rfl
    exact shift_zero g

theorem iterate_shift_eq_zero_iff (g s : BitVec w) (hg : g.getMsbD (w - 1) = true) (k : Nat) :
    (shift g)^[k] s = 0#w ↔ s = 0#w := by
  induction k generalizing s with
  | zero => rfl
  | succ k ih => rw [Function.iterate_succ_apply, ih, shift_eq_zero_iff g s hg]

/-- Bits that do not reach the bottom of the register step up without
feedback. -/
theorem shift_align (g : BitVec w) (bits : List Bool) (h : bits.length < w) :
    shift g (align bits >>> 1) = align bits := by
  apply BitVec.eq_of_getMsbD_eq
  intro i hi
  have hout : bits[w - 1]? = none := List.getElem?_eq_none (by omega)
  simp only [getMsbD_shift, BitVec.getMsbD_ushiftRight, getMsbD_align]
  by_cases hlast : i + 1 < w
  · simp [hlast, hi]
  · have hi' : i = w - 1 := by omega
    subst hi'
    simp [hout]

/-- Feeding at most `w` bits is adding them at the top and stepping once for
each of them. -/
theorem feedAll_eq_iterate (g s : BitVec w) (bits : List Bool) (h : bits.length ≤ w) :
    feedAll g s bits = (shift g)^[bits.length] (s ^^^ align bits) := by
  induction bits generalizing s with
  | nil => simp [feedAll, align]
  | cons b bits ih =>
      simp only [List.length_cons] at h ⊢
      have htail : feedAll g s (b :: bits) = feedAll g (feed g s b) bits := rfl
      rw [htail, ih _ (by omega), Function.iterate_succ_apply]
      congr 1
      rw [align, ← BitVec.xor_assoc, shift_xor, shift_align g bits (by omega)]
      rfl

/-- With an odd generator, at most `w` bits clear the register exactly when
the register already held them at its top. -/
theorem feedAll_eq_zero_iff (g s : BitVec w) (hg : g.getMsbD (w - 1) = true)
    (bits : List Bool) (h : bits.length ≤ w) :
    feedAll g s bits = 0#w ↔ s = align bits := by
  rw [feedAll_eq_iterate g s bits h, iterate_shift_eq_zero_iff g _ hg, BitVec.xor_eq_zero_iff]

theorem feedAll_append (g s : BitVec w) (xs ys : List Bool) :
    feedAll g s (xs ++ ys) = feedAll g (feedAll g s xs) ys := by
  simp [feedAll]

theorem feedAll_xor (g s t : BitVec w) (xs ys : List Bool) (h : xs.length = ys.length) :
    feedAll g (s ^^^ t) (List.zipWith xor xs ys) = feedAll g s xs ^^^ feedAll g t ys := by
  induction xs generalizing s t ys with
  | nil =>
      have hys : ys = [] := List.length_eq_zero_iff.mp h.symm
      subst hys
      rfl
  | cons x xs ih =>
      cases ys with
      | nil => simp at h
      | cons y ys =>
          have hlead : (lead (xor x y) : BitVec w) = lead x ^^^ lead y := by
            cases x <;> cases y <;> simp [lead]
          have hfeed : feed g (s ^^^ t) (xor x y) = feed g s x ^^^ feed g t y := by
            rw [feed, hlead, feed, feed, ← shift_xor]
            congr 1
            ac_rfl
          simp only [List.zipWith_cons_cons]
          change feedAll g (feed g (s ^^^ t) (xor x y)) (List.zipWith xor xs ys) = _
          rw [hfeed, ih _ _ _ (by simpa using h)]
          rfl

theorem feedAll_of_false (g s : BitVec w) (bits : List Bool) (h : ∀ b ∈ bits, b = false) :
    feedAll g s bits = (shift g)^[bits.length] s := by
  induction bits generalizing s with
  | nil => rfl
  | cons b bits ih =>
      have hb : b = false := h b (by simp)
      subst hb
      change feedAll g (feed g s false) bits = _
      rw [ih _ (fun c hc => h c (by simp [hc])), List.length_cons, Function.iterate_succ_apply]
      simp [feed, lead]

/-- An error burst no longer than the register leaves a nonzero remainder,
wherever it stands. -/
theorem feedAll_burst_ne_zero (g : BitVec w) (hg : g.getMsbD (w - 1) = true)
    (before burst after : List Bool) (hbefore : ∀ b ∈ before, b = false)
    (hafter : ∀ b ∈ after, b = false) (hlen : burst.length ≤ w) (hburst : true ∈ burst) :
    feedAll g 0#w (before ++ burst ++ after) ≠ 0#w := by
  have hzero : feedAll g 0#w before = 0#w := by
    rw [feedAll_of_false g _ before hbefore]
    exact (iterate_shift_eq_zero_iff g _ hg _).mpr rfl
  rw [feedAll_append, feedAll_append, hzero, feedAll_of_false g _ after hafter]
  intro h
  have halign := (feedAll_eq_zero_iff g _ hg burst hlen).mp
    ((iterate_shift_eq_zero_iff g _ hg _).mp h)
  obtain ⟨i, hi, hget⟩ := List.getElem_of_mem hburst
  have hbit : (align burst : BitVec w).getMsbD i = true := by
    rw [getMsbD_align]
    simp [hget, hi, show i < w by omega]
  rw [← halign] at hbit
  simp at hbit

/-- The two sequences agree outside some window of `n` consecutive places. -/
def DifferWithin (n : Nat) (xs ys : List Bool) : Prop :=
  ∃ start, ∀ i, xs[i]? ≠ ys[i]? → start ≤ i ∧ i < start + n

theorem feedAll_ne_of_differWithin (g s : BitVec w) (hg : g.getMsbD (w - 1) = true)
    (xs ys : List Bool) (hlen : xs.length = ys.length) (hne : xs ≠ ys)
    (hwindow : DifferWithin w xs ys) : feedAll g s xs ≠ feedAll g s ys := by
  obtain ⟨start, hstart⟩ := hwindow
  let errors := List.zipWith xor xs ys
  have herror (i : Nat) (hi : i < errors.length) (htrue : errors[i] = true) :
      start ≤ i ∧ i < start + w := by
    apply hstart
    simp only [errors, List.length_zipWith] at hi
    simp only [errors, List.getElem_zipWith, bne_iff_ne] at htrue
    rw [List.getElem?_eq_getElem (by omega), List.getElem?_eq_getElem (by omega)]
    simpa using htrue
  have hsplit : errors = errors.take start ++ (errors.drop start).take w ++
      errors.drop (start + w) := by
    rw [List.append_assoc, ← List.drop_drop, List.take_append_drop, List.take_append_drop]
  have hexists : true ∈ errors := by
    by_contra hnone
    apply hne
    apply List.ext_getElem hlen
    intro i hx hy
    have hi : i < errors.length := by simp [errors, hx, hy]
    have hfalse : errors[i] ≠ true := fun h => hnone (h ▸ List.getElem_mem hi)
    simpa [errors] using hfalse
  have hbefore : ∀ b ∈ errors.take start, b = false := by
    intro b hb
    obtain ⟨i, hi, rfl⟩ := List.getElem_of_mem hb
    rw [Bool.eq_false_iff]
    intro htrue
    rw [List.length_take] at hi
    rw [List.getElem_take] at htrue
    have := herror i (by omega) htrue
    omega
  have hafter : ∀ b ∈ errors.drop (start + w), b = false := by
    intro b hb
    obtain ⟨i, hi, rfl⟩ := List.getElem_of_mem hb
    rw [Bool.eq_false_iff]
    intro htrue
    rw [List.length_drop] at hi
    rw [List.getElem_drop] at htrue
    have := herror (start + w + i) (by omega) htrue
    omega
  have hburst : true ∈ (errors.drop start).take w := by
    rw [hsplit, List.mem_append, List.mem_append] at hexists
    rcases hexists with (h | h) | h
    · exact absurd (hbefore _ h) (by simp)
    · exact h
    · exact absurd (hafter _ h) (by simp)
  intro heq
  have hzero : feedAll g 0#w errors = 0#w := by
    have hxor := feedAll_xor g s s xs ys hlen
    rwa [heq, BitVec.xor_self, BitVec.xor_self] at hxor
  rw [hsplit] at hzero
  exact feedAll_burst_ne_zero g hg _ _ _ hbefore hafter (by simp) hburst hzero

/-- The bits of a word, most significant first. -/
def msbBits {k : Nat} (x : BitVec k) : List Bool := List.ofFn fun i : Fin k => x.getMsbD i

@[simp] theorem length_msbBits {k : Nat} (x : BitVec k) : (msbBits x).length = k := by
  simp [msbBits]

theorem getD_msbBits {k : Nat} (x : BitVec k) (i : Nat) :
    (msbBits x).getD i false = x.getMsbD i := by
  by_cases hi : i < k
  · simp [msbBits, List.getD_eq_getElem?_getD, hi]
  · rw [BitVec.getMsbD_of_ge x i (by omega)]
    simp [msbBits, hi]

theorem align_msbBits {k : Nat} (x : BitVec k) (h : k ≤ w) :
    (align (msbBits x) : BitVec w) = x.setWidth w <<< (w - k) := by
  apply BitVec.eq_of_getMsbD_eq
  intro i hi
  rw [getMsbD_align, getD_msbBits, BitVec.getMsbD_shiftLeft, BitVec.getMsbD_setWidth]
  simp only [hi, decide_true, Bool.true_and]
  by_cases hik : i < k
  · simp [show w - k ≤ i + (w - k) by omega, show i + (w - k) + k - w = i by omega]
  · rw [BitVec.getMsbD_of_ge x i (by omega), BitVec.getMsbD_of_ge x _ (by omega)]
    simp

theorem msbBits_append {k l : Nat} (x : BitVec k) (y : BitVec l) :
    msbBits (x ++ y) = msbBits x ++ msbBits y := by
  apply List.ext_getElem
  · simp
  · intro i hi hi'
    simp only [msbBits, List.getElem_ofFn, List.getElem_append, BitVec.getMsbD_append,
      List.length_ofFn]
    by_cases hik : i < k
    · simp [hik, show ¬ k ≤ i by omega]
    · simp [hik, show k ≤ i by omega]

/-- The bits of a sequence of words in order, each most significant first. -/
def wordBits {k : Nat} (words : List (BitVec k)) : List Bool := words.flatMap msbBits

theorem msbBits_injective {k : Nat} : Function.Injective (msbBits (k := k)) := by
  intro x y h
  apply BitVec.eq_of_getMsbD_eq
  intro i _
  rw [← getD_msbBits, h, getD_msbBits]

@[simp] theorem length_wordBits {k : Nat} (words : List (BitVec k)) :
    (wordBits words).length = k * words.length := by
  induction words with
  | nil => rfl
  | cons x xs ih =>
      simp only [wordBits, List.flatMap_cons, List.length_append, length_msbBits,
        List.length_cons, Nat.mul_succ] at ih ⊢
      omega

theorem wordBits_injective {k : Nat} (xs ys : List (BitVec k)) (hlen : xs.length = ys.length)
    (h : wordBits xs = wordBits ys) : xs = ys := by
  induction xs generalizing ys with
  | nil => exact (List.length_eq_zero_iff.mp hlen.symm).symm
  | cons x xs ih =>
      cases ys with
      | nil => simp at hlen
      | cons y ys =>
          simp only [wordBits, List.flatMap_cons] at h
          obtain ⟨hhead, htail⟩ := List.append_inj h (by simp)
          rw [msbBits_injective hhead, ih ys (by simpa using hlen) htail]

end ShiftRegister
