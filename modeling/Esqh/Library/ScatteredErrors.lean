import Esqh.Library.ShiftRegister
import Mathlib.Algebra.Ring.Parity

/-!
What a feedback shift register detects beyond bursts. A generator with an odd
number of ones makes the register's parity follow the parity of what is fed, so
an odd number of flipped bits always shows. Two flipped bits cancel only if
their distance brings a single bit at the top back to its place, so they show
within the generator's period.
-/

namespace ShiftRegister

variable {w : Nat}

/-- Whether the number of ones is odd. -/
def parity : List Bool → Bool
  | [] => false
  | b :: bits => xor b (parity bits)

/-- The number of places at which two sequences differ. -/
def flips (xs ys : List Bool) : Nat := (List.zipWith xor xs ys).count true

theorem parity_append (xs ys : List Bool) : parity (xs ++ ys) = xor (parity xs) (parity ys) := by
  induction xs with
  | nil => simp [parity]
  | cons x xs ih => simp [parity, ih]

theorem parity_zipWith_xor (xs ys : List Bool) (h : xs.length = ys.length) :
    parity (List.zipWith xor xs ys) = xor (parity xs) (parity ys) := by
  induction xs generalizing ys with
  | nil =>
      have hys : ys = [] := List.length_eq_zero_iff.mp h.symm
      subst hys
      rfl
  | cons x xs ih =>
      cases ys with
      | nil => simp at h
      | cons y ys =>
          rw [List.zipWith_cons_cons, parity, parity, parity, ih ys (by simpa using h)]
          cases x <;> cases y <;> simp

theorem parity_map_and (b : Bool) (bits : List Bool) :
    parity (bits.map (b && ·)) = (b && parity bits) := by
  induction bits with
  | nil => simp [parity]
  | cons x bits ih =>
      rw [List.map_cons, parity, parity, ih]
      cases b <;> simp

theorem parity_of_false (bits : List Bool) (h : ∀ b ∈ bits, b = false) : parity bits = false := by
  induction bits with
  | nil => rfl
  | cons x bits ih =>
      have hx : x = false := h x (by simp)
      rw [parity, hx, ih (fun b hb => h b (by simp [hb]))]
      rfl

theorem parity_eq_true_iff (bits : List Bool) : parity bits = true ↔ Odd (bits.count true) := by
  induction bits with
  | nil => simp [parity]
  | cons x bits ih =>
      cases x with
      | false => simpa [parity] using ih
      | true =>
          rw [parity, List.count_cons_self, Nat.odd_add_one, ← ih]
          simp

theorem msbBits_xor (s t : BitVec w) :
    msbBits (s ^^^ t) = List.zipWith xor (msbBits s) (msbBits t) := by
  apply List.ext_getElem
  · simp
  · intro i hi hi'
    simp [msbBits]

theorem wordBits_zipWith_xor (xs ys : List (BitVec w)) (h : xs.length = ys.length) :
    wordBits (List.zipWith (· ^^^ ·) xs ys) = List.zipWith xor (wordBits xs) (wordBits ys) := by
  induction xs generalizing ys with
  | nil => rfl
  | cons x xs ih =>
      cases ys with
      | nil => simp at h
      | cons y ys =>
          have htail := ih ys (by simpa using h)
          simp only [wordBits] at htail ⊢
          rw [List.zipWith_cons_cons, List.flatMap_cons, List.flatMap_cons, List.flatMap_cons,
            List.zipWith_append (by simp), msbBits_xor, htail]

theorem msbBits_eq_cons (s : BitVec (w + 1)) :
    msbBits s = s.getMsbD 0 :: List.ofFn fun i : Fin w => s.getMsbD (i + 1) := by
  rw [msbBits, List.ofFn_succ]
  rfl

/-- A step drops the top bit of the register and adds the generator for it. -/
theorem msbBits_shift (g s : BitVec w) :
    msbBits (shift g s) =
      List.zipWith xor ((msbBits s).tail ++ [false]) ((msbBits g).map (s.getMsbD 0 && ·)) := by
  apply List.ext_getElem
  · simp
    omega
  · intro i hi hi'
    simp only [length_msbBits] at hi
    simp only [msbBits, List.getElem_ofFn, getMsbD_shift, List.getElem_zipWith, List.getElem_map,
      List.getElem_append, List.length_tail, List.length_ofFn, List.getElem_tail]
    by_cases hlast : i < w - 1
    · simp [hlast]
    · simp [hlast, BitVec.getMsbD_of_ge s (i + 1) (by omega)]

/-- A step with a generator of odd parity keeps the register's parity. -/
theorem parity_shift (g s : BitVec w) (hg : parity (msbBits g) = true) :
    parity (msbBits (shift g s)) = parity (msbBits s) := by
  cases w with
  | zero => simp [msbBits]
  | succ w =>
      rw [msbBits_shift, parity_zipWith_xor _ _ (by simp), parity_map_and, hg, parity_append,
        msbBits_eq_cons s, List.tail_cons, parity]
      simp [parity, Bool.xor_comm]

theorem parity_lead (b : Bool) (hw : 0 < w) : parity (msbBits (lead b : BitVec w)) = b := by
  cases w with
  | zero => omega
  | succ w =>
      rw [msbBits_eq_cons, parity, parity_of_false]
      · simp [getMsbD_lead]
      · intro c hc
        obtain ⟨i, rfl⟩ := List.mem_ofFn.mp hc
        simp [getMsbD_lead]

theorem parity_feedAll (g s : BitVec w) (hw : 0 < w) (hg : parity (msbBits g) = true)
    (bits : List Bool) :
    parity (msbBits (feedAll g s bits)) = xor (parity (msbBits s)) (parity bits) := by
  induction bits generalizing s with
  | nil => simp [feedAll, parity]
  | cons b bits ih =>
      have hfeed : parity (msbBits (feed g s b)) = xor (parity (msbBits s)) b := by
        rw [feed, parity_shift g _ hg, msbBits_xor, parity_zipWith_xor _ _ (by simp),
          parity_lead b hw]
      change parity (msbBits (feedAll g (feed g s b) bits)) = _
      rw [ih, hfeed, parity, Bool.xor_assoc]

/-- An odd number of flipped bits changes the remainder. -/
theorem feedAll_ne_of_odd_flips (g s : BitVec w) (hw : 0 < w) (hg : parity (msbBits g) = true)
    (xs ys : List Bool) (hlen : xs.length = ys.length) (hodd : Odd (flips xs ys)) :
    feedAll g s xs ≠ feedAll g s ys := by
  intro heq
  have hparity := congrArg (fun r => parity (msbBits r)) heq
  simp only [parity_feedAll g s hw hg] at hparity
  have hsame : parity xs = parity ys := by simpa using hparity
  have hflips := (parity_eq_true_iff _).mpr hodd
  rw [parity_zipWith_xor xs ys hlen, hsame, Bool.xor_self] at hflips
  cases hflips

/-- The first of the ones of a sequence. -/
theorem exists_first_true (bits : List Bool) (n : Nat) (h : bits.count true = n + 1) :
    ∃ before after, bits = before ++ true :: after ∧ (∀ b ∈ before, b = false) ∧
      after.count true = n := by
  induction bits with
  | nil => simp at h
  | cons x bits ih =>
      cases x with
      | true => exact ⟨[], bits, rfl, by simp, by simpa using h⟩
      | false =>
          obtain ⟨before, after, rfl, hbefore, hafter⟩ := ih (by simpa using h)
          refine ⟨false :: before, after, rfl, ?_, hafter⟩
          intro b hb
          rcases List.mem_cons.mp hb with rfl | hb
          · rfl
          · exact hbefore b hb

/-- Two ones leave a nonzero remainder unless the steps between them bring the
first one back to the top. -/
theorem feedAll_pair_ne_zero (g : BitVec w) (hg : g.getMsbD (w - 1) = true)
    (before between after : List Bool) (hbefore : ∀ b ∈ before, b = false)
    (hbetween : ∀ b ∈ between, b = false) (hafter : ∀ b ∈ after, b = false)
    (hperiod : (shift g)^[between.length + 1] (lead true) ≠ lead true) :
    feedAll g 0#w (before ++ true :: (between ++ true :: after)) ≠ 0#w := by
  have hzero : feedAll g 0#w before = 0#w := by
    rw [feedAll_of_false g _ before hbefore]
    exact (iterate_shift_eq_zero_iff g _ hg _).mpr rfl
  have hfirst : feed g 0#w true = shift g (lead true) := by simp [feed]
  rw [feedAll_append, hzero]
  change feedAll g (feed g 0#w true) (between ++ true :: after) ≠ 0#w
  rw [hfirst, feedAll_append, feedAll_of_false g _ between hbetween, ← Function.iterate_succ_apply]
  change feedAll g (feed g _ true) after ≠ 0#w
  rw [feedAll_of_false g _ after hafter]
  intro h
  have hshift := (iterate_shift_eq_zero_iff g _ hg _).mp h
  rw [feed, shift_eq_zero_iff g _ hg, BitVec.xor_eq_zero_iff] at hshift
  exact hperiod hshift

/-- Two flipped bits change the remainder of a sequence that is shorter than
the generator's period. -/
theorem feedAll_ne_of_two_flips (g s : BitVec w) (hg : g.getMsbD (w - 1) = true)
    (xs ys : List Bool) (hlen : xs.length = ys.length) (htwo : flips xs ys = 2)
    (hperiod : ∀ d, 0 < d → d < xs.length → (shift g)^[d] (lead true) ≠ lead true) :
    feedAll g s xs ≠ feedAll g s ys := by
  obtain ⟨before, rest, hsplit, hbefore, hrest⟩ := exists_first_true _ 1 htwo
  obtain ⟨between, after, rfl, hbetween, hafter⟩ := exists_first_true rest 0 hrest
  have hafter' : ∀ b ∈ after, b = false := by
    intro b hb
    rw [Bool.eq_false_iff]
    rintro rfl
    exact List.count_eq_zero.mp hafter hb
  have hlength := congrArg List.length hsplit
  simp only [List.length_zipWith, List.length_append, List.length_cons] at hlength
  intro heq
  have hxor := feedAll_xor g s s xs ys hlen
  rw [heq, BitVec.xor_self, BitVec.xor_self, hsplit] at hxor
  exact feedAll_pair_ne_zero g hg before between after hbefore hbetween hafter'
    (hperiod _ (by omega) (by omega)) hxor

/-- Whether the register differs from `target` after each of the next steps. -/
def avoids (g target : BitVec w) : BitVec w → Nat → Bool
  | _, 0 => true
  | s, n + 1 => decide (shift g s ≠ target) && avoids g target (shift g s) n

theorem iterate_shift_ne_of_avoids {g target s : BitVec w} {n : Nat}
    (h : avoids g target s n = true) {d : Nat} (hpos : 0 < d) (hd : d ≤ n) :
    (shift g)^[d] s ≠ target := by
  induction n generalizing s d with
  | zero => omega
  | succ n ih =>
      rw [avoids, Bool.and_eq_true, decide_eq_true_eq] at h
      cases d with
      | zero => omega
      | succ d =>
          rw [Function.iterate_succ_apply]
          by_cases hd' : d = 0
          · subst hd'
            exact h.1
          · exact ih h.2 (by omega) (by omega)

end ShiftRegister
