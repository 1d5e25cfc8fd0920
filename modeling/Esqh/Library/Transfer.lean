import Mathlib.Logic.Function.Basic
import Mathlib.Logic.Nontrivial.Basic
import Mathlib.Tactic.Common

/-!
Loops that move or fill a region of a memory, one cell after the other, upwards.
A copy reads every cell when it gets to it: where the regions overlap, it may
read cells that it has written itself. Copied onto cells above its source, the
first cells of the source repeat.
-/

namespace Transfer

universe u

variable {α : Type u} (cells : Nat → α) (destination source : Nat) (value : α)

/-- Copy `length` cells to `destination` from `source`, lowest first. -/
def copyUp (cells : Nat → α) (destination source : Nat) : Nat → Nat → α
  | 0 => cells
  | length + 1 =>
    copyUp (Function.update cells destination (cells source)) (destination + 1) (source + 1) length

/-- Fill `length` cells from `destination` on, lowest first. -/
def fillUp (cells : Nat → α) (destination : Nat) (value : α) : Nat → Nat → α
  | 0 => cells
  | length + 1 => fillUp (Function.update cells destination value) (destination + 1) value length

theorem copyUp_add (first second : Nat) :
    copyUp cells destination source (first + second) =
      copyUp (copyUp cells destination source first) (destination + first) (source + first)
        second := by
  induction first generalizing cells destination source with
  | zero => rw [Nat.zero_add, copyUp, Nat.add_zero, Nat.add_zero]
  | succ first ih =>
      rw [Nat.succ_add, copyUp, copyUp, ih, Nat.add_right_comm destination,
        Nat.add_right_comm source, Nat.add_assoc, Nat.add_assoc]

theorem fillUp_add (first second : Nat) :
    fillUp cells destination value (first + second) =
      fillUp (fillUp cells destination value first) (destination + first) value second := by
  induction first generalizing cells destination with
  | zero => rw [Nat.zero_add, fillUp, Nat.add_zero]
  | succ first ih =>
      rw [Nat.succ_add, fillUp, fillUp, ih, Nat.add_right_comm destination, Nat.add_assoc]

/-- The cell that is read after one step: the one that was written, once the
reading has come as far as the destination. -/
theorem update_advance (k : Nat) :
    Function.update cells destination (cells source)
        (source + 1 + k % (destination - source)) =
      cells (source + (k + 1) % (destination - source)) := by
  rcases Nat.eq_zero_or_pos (destination - source) with hbelow | hahead
  · rw [hbelow, Nat.mod_zero, Nat.mod_zero, Function.update_of_ne (by omega)]
    apply congrArg cells
    omega
  · have hlt := Nat.mod_lt k hahead
    rw [← Nat.mod_add_mod]
    rcases Nat.lt_or_eq_of_le hlt with hless | hlast
    · rw [Nat.mod_eq_of_lt hless, Function.update_of_ne (by omega), Nat.add_assoc,
        Nat.add_comm 1]
    · have hdestination : source + 1 + k % (destination - source) = destination := by omega
      have hreturn : k % (destination - source) + 1 = destination - source := hlast
      rw [hdestination, hreturn, Nat.mod_self, Function.update_self, Nat.add_zero]

/-- Every cell after a copy. What has been written is read again from the
`destination - source`-th cell on; without an overlap from below this difference
is 0, and the remainder of a division by 0 is the dividend. -/
theorem copyUp_apply (length address : Nat) :
    copyUp cells destination source length address =
      if destination ≤ address ∧ address < destination + length then
        cells (source + (address - destination) % (destination - source))
      else cells address := by
  induction length generalizing cells destination source with
  | zero => rw [copyUp, if_neg (by omega)]
  | succ length ih =>
      rw [copyUp, ih, Nat.add_sub_add_right]
      rcases Nat.lt_trichotomy address destination with hlow | rfl | hhigh
      · rw [if_neg (by omega), if_neg (by omega), Function.update_of_ne (by omega)]
      · rw [if_neg (by omega), if_pos (by omega), Function.update_self, Nat.sub_self,
          Nat.zero_mod, Nat.add_zero]
      · have hnext : address - destination = address - (destination + 1) + 1 := by omega
        rw [update_advance, Function.update_of_ne (by omega), ← hnext]
        apply if_congr _ rfl rfl
        omega

/-- Every cell after a fill. -/
theorem fillUp_apply (length address : Nat) :
    fillUp cells destination value length address =
      if destination ≤ address ∧ address < destination + length then value
      else cells address := by
  induction length generalizing cells destination with
  | zero => rw [fillUp, if_neg (by omega)]
  | succ length ih =>
      rw [fillUp, ih]
      rcases Nat.lt_trichotomy address destination with hlow | rfl | hhigh
      · rw [if_neg (by omega), if_neg (by omega), Function.update_of_ne (by omega)]
      · rw [if_neg (by omega), if_pos (by omega), Function.update_self]
      · rw [Function.update_of_ne (by omega)]
        apply if_congr _ rfl rfl
        omega

/-- The destination does not start inside the source, above its first cell. -/
def Clear (destination source length : Nat) : Prop :=
  destination ≤ source ∨ source + length ≤ destination

instance (destination source length : Nat) : Decidable (Clear destination source length) :=
  inferInstanceAs (Decidable (_ ∨ _))

theorem copyUp_of_clear {length : Nat} (h : Clear destination source length) {index : Nat}
    (hindex : index < length) :
    copyUp cells destination source length (destination + index) = cells (source + index) := by
  rw [copyUp_apply, if_pos (by omega), Nat.add_sub_cancel_left]
  rcases h with hbelow | habove
  · rw [Nat.sub_eq_zero_of_le hbelow, Nat.mod_zero]
  · rw [Nat.mod_eq_of_lt (by omega)]

/-- The copy delivers the source, whatever is in the memory, exactly if the
destination does not start inside it. -/
theorem copies_iff_clear [Nontrivial α] (length : Nat) :
    (∀ cells : Nat → α, ∀ index < length,
      copyUp cells destination source length (destination + index) = cells (source + index)) ↔
      Clear destination source length := by
  constructor
  · intro hcopies
    obtain ⟨first, other, hdistinct⟩ := exists_pair_ne α
    rw [Clear]
    by_contra hinside
    have hindex : destination - source < length := by omega
    have hcopied := hcopies (Function.update (fun _ => first) source other) _ hindex
    rw [copyUp_apply, if_pos (by omega), Nat.add_sub_cancel_left, Nat.mod_self, Nat.add_zero,
      Function.update_self, Function.update_of_ne (by omega)] at hcopied
    exact hdistinct hcopied.symm
  · intro h cells index hindex
    exact copyUp_of_clear cells destination source h hindex

end Transfer
