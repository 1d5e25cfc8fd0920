import Esqh.Library.ScatteredErrors
import Mathlib.Algebra.CharP.Two
import Mathlib.Algebra.Field.ZMod
import Mathlib.Algebra.Polynomial.Div
import Mathlib.Tactic.LinearCombination

/-!
What a feedback shift register computes, in the terms of polynomial division
over the field with two elements. A bit sequence is the polynomial with these
coefficients, highest first; a word is the polynomial of its bits. Feeding a
sequence to a register of width `w` leaves the remainder modulo `X ^ w` plus
the generator of the sequence moved up by `w` places, to which the start value
is added above the sequence.
-/

namespace ShiftRegister

open Polynomial

variable {w : Nat}

/-- A bit as a coefficient. -/
def coefficient (b : Bool) : ZMod 2 := if b then 1 else 0

/-- The polynomial whose coefficients are the given bits, highest first. -/
noncomputable def bitPolynomial : List Bool → (ZMod 2)[X]
  | [] => 0
  | b :: bits => C (coefficient b) * X ^ bits.length + bitPolynomial bits

/-- The polynomial of a word's bits, most significant first. -/
noncomputable def wordPolynomial (s : BitVec w) : (ZMod 2)[X] := bitPolynomial (msbBits s)

/-- The divisor of a register of width `w`: the generator below a leading one. -/
noncomputable def divisor (g : BitVec w) : (ZMod 2)[X] := X ^ w + wordPolynomial g

theorem coefficient_xor (b c : Bool) :
    coefficient (xor b c) = coefficient b + coefficient c := by
  cases b <;> cases c <;> decide

theorem coefficient_and (b c : Bool) :
    coefficient (b && c) = coefficient b * coefficient c := by
  cases b <;> cases c <;> decide

theorem bitPolynomial_append (xs ys : List Bool) :
    bitPolynomial (xs ++ ys) = bitPolynomial xs * X ^ ys.length + bitPolynomial ys := by
  induction xs with
  | nil => simp [bitPolynomial]
  | cons x xs ih =>
      rw [List.cons_append, bitPolynomial, bitPolynomial, ih, List.length_append, pow_add]
      ring

theorem bitPolynomial_of_false (bits : List Bool) (h : ∀ b ∈ bits, b = false) :
    bitPolynomial bits = 0 := by
  induction bits with
  | nil => rfl
  | cons b bits ih =>
      have hb : b = false := h b (by simp)
      rw [bitPolynomial, ih (fun c hc => h c (by simp [hc])), hb]
      simp [coefficient]

theorem bitPolynomial_zipWith_xor (xs ys : List Bool) (h : xs.length = ys.length) :
    bitPolynomial (List.zipWith xor xs ys) = bitPolynomial xs + bitPolynomial ys := by
  induction xs generalizing ys with
  | nil =>
      have hys : ys = [] := List.length_eq_zero_iff.mp h.symm
      subst hys
      simp [bitPolynomial]
  | cons x xs ih =>
      cases ys with
      | nil => simp at h
      | cons y ys =>
          have hlen : xs.length = ys.length := by simpa using h
          rw [List.zipWith_cons_cons, bitPolynomial, bitPolynomial, bitPolynomial, ih ys hlen,
            coefficient_xor, C_add, List.length_zipWith, hlen, Nat.min_self]
          ring

theorem bitPolynomial_map_and (b : Bool) (bits : List Bool) :
    bitPolynomial (bits.map (b && ·)) = C (coefficient b) * bitPolynomial bits := by
  induction bits with
  | nil => simp [bitPolynomial]
  | cons x bits ih =>
      rw [List.map_cons, bitPolynomial, bitPolynomial, ih, coefficient_and, C_mul,
        List.length_map]
      ring

theorem degree_bitPolynomial_lt (bits : List Bool) :
    (bitPolynomial bits).degree < bits.length := by
  induction bits with
  | nil => simp [bitPolynomial]
  | cons b bits ih =>
      apply lt_of_le_of_lt (degree_add_le _ _)
      apply max_lt
      · apply lt_of_le_of_lt (degree_C_mul_X_pow_le _ _)
        exact_mod_cast Nat.lt_succ_self _
      · apply ih.trans
        exact_mod_cast Nat.lt_succ_self _

theorem degree_wordPolynomial_lt (s : BitVec w) : (wordPolynomial s).degree < w := by
  have h := degree_bitPolynomial_lt (msbBits s)
  rwa [length_msbBits] at h

theorem monic_divisor (g : BitVec w) : (divisor g).Monic :=
  monic_X_pow_add (degree_wordPolynomial_lt g)

theorem degree_divisor (g : BitVec w) : (divisor g).degree = w := by
  have hlt : (wordPolynomial g).degree < (X ^ w : (ZMod 2)[X]).degree := by
    rw [degree_X_pow]
    exact degree_wordPolynomial_lt g
  rw [divisor, degree_add_eq_left_of_degree_lt hlt, degree_X_pow]

theorem wordPolynomial_xor (s t : BitVec w) :
    wordPolynomial (s ^^^ t) = wordPolynomial s + wordPolynomial t := by
  rw [wordPolynomial, msbBits_xor, bitPolynomial_zipWith_xor _ _ (by simp)]
  rfl

/-- A step without input multiplies by the variable and takes the divisor off
once if a one leaves the register at the top. -/
theorem wordPolynomial_shift (g s : BitVec w) :
    wordPolynomial (shift g s) =
      wordPolynomial s * X + C (coefficient (s.getMsbD 0)) * divisor g := by
  cases w with
  | zero => simp [wordPolynomial, divisor, msbBits, bitPolynomial, coefficient]
  | succ w =>
      have hlen : ((msbBits s).tail ++ [false]).length =
          ((msbBits g).map (s.getMsbD 0 && ·)).length := by
        simp
      have hlead : bitPolynomial (msbBits s) =
          C (coefficient (s.getMsbD 0)) * X ^ w + bitPolynomial (msbBits s).tail := by
        rw [msbBits_eq_cons s, bitPolynomial, List.length_ofFn, List.tail_cons]
      rw [wordPolynomial, msbBits_shift, bitPolynomial_zipWith_xor _ _ hlen,
        bitPolynomial_map_and, bitPolynomial_append, bitPolynomial_of_false [false] (by simp),
        wordPolynomial, hlead, divisor, wordPolynomial, List.length_singleton]
      -- the coefficient that leaves at the top occurs twice and cancels
      have htwice := CharTwo.add_self_eq_zero (C (coefficient (s.getMsbD 0)) * X ^ (w + 1))
      linear_combination -htwice

theorem wordPolynomial_lead (b : Bool) :
    wordPolynomial (lead b : BitVec (w + 1)) = C (coefficient b) * X ^ w := by
  have hlow : ∀ c ∈ List.ofFn (fun i : Fin w => (lead b : BitVec (w + 1)).getMsbD (i + 1)),
      c = false := by
    intro c hc
    obtain ⟨i, rfl⟩ := List.mem_ofFn.mp hc
    simp [getMsbD_lead]
  rw [wordPolynomial, msbBits_eq_cons, bitPolynomial, bitPolynomial_of_false _ hlow,
    List.length_ofFn, getMsbD_lead]
  simp

/-- A bit that is fed in enters above the register. -/
theorem divisor_dvd_feed (g s : BitVec w) (b : Bool) :
    divisor g ∣
      wordPolynomial s * X + C (coefficient b) * X ^ w - wordPolynomial (feed g s b) := by
  cases w with
  | zero =>
      have hone : divisor g = 1 := by simp [divisor, wordPolynomial, msbBits, bitPolynomial]
      rw [hone]
      exact one_dvd _
  | succ w =>
      rw [feed, wordPolynomial_shift, wordPolynomial_xor, wordPolynomial_lead]
      apply Dvd.intro_left (-C (coefficient ((s ^^^ lead b).getMsbD 0)))
      ring

theorem divisor_dvd_feedAll (g s : BitVec w) (bits : List Bool) :
    divisor g ∣ wordPolynomial s * X ^ bits.length + bitPolynomial bits * X ^ w -
      wordPolynomial (feedAll g s bits) := by
  induction bits generalizing s with
  | nil => simp [feedAll, bitPolynomial]
  | cons b bits ih =>
      have hfirst := Dvd.dvd.mul_right (divisor_dvd_feed g s b) (X ^ bits.length)
      have hsum := dvd_add hfirst (ih (feed g s b))
      have htail : feedAll g s (b :: bits) = feedAll g (feed g s b) bits := rfl
      rw [htail, bitPolynomial, List.length_cons]
      convert hsum using 1
      ring

/-- Feeding a sequence leaves the remainder of the sequence followed by a
register's width of zeros, the start value added above it. -/
theorem wordPolynomial_feedAll (g s : BitVec w) (bits : List Bool) :
    wordPolynomial (feedAll g s bits) =
      (bitPolynomial (bits ++ List.replicate w false) + wordPolynomial s * X ^ bits.length) %ₘ
        divisor g := by
  have hzeros : bitPolynomial (bits ++ List.replicate w false) = bitPolynomial bits * X ^ w := by
    have hfalse : ∀ b ∈ List.replicate w false, b = false := fun b => List.eq_of_mem_replicate
    rw [bitPolynomial_append, bitPolynomial_of_false _ hfalse, List.length_replicate, add_zero]
  have hself : wordPolynomial (feedAll g s bits) %ₘ divisor g =
      wordPolynomial (feedAll g s bits) := by
    rw [modByMonic_eq_self_iff (monic_divisor g), degree_divisor]
    exact degree_wordPolynomial_lt _
  rw [hzeros, add_comm, ← hself]
  exact (modByMonic_eq_of_dvd_sub (monic_divisor g) (divisor_dvd_feedAll g s bits)).symm

end ShiftRegister
