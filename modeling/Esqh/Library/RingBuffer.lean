import Mathlib.Tactic.Common
import Mathlib.Tactic.TypeStar

/-!
A bounded queue in a fixed array: a head, a count, and indices that wrap. The
well-formedness of the two numbers is part of the structure. `contents` is the
list the ring stands for, and the two operations act on it as a queue does.
-/

structure RingBuffer (α : Type*) (n : Nat) where
  slots : Vector α n
  head : Nat
  count : Nat
  head_lt : head < n
  count_le : count ≤ n

namespace RingBuffer

variable {α : Type*} {n : Nat}

/-- The slot that lies `i` places behind the head. -/
def slot (r : RingBuffer α n) (i : Nat) : Nat := (r.head + i) % n

theorem slot_lt (r : RingBuffer α n) (i : Nat) : r.slot i < n :=
  Nat.mod_lt _ (Nat.zero_lt_of_lt r.head_lt)

theorem slot_eq (r : RingBuffer α n) {i : Nat} (hi : i < n) :
    r.slot i = if r.head + i < n then r.head + i else r.head + i - n := by
  have hhead := r.head_lt
  unfold slot
  split
  next h => exact Nat.mod_eq_of_lt h
  next h => rw [Nat.mod_eq_sub_mod (by omega), Nat.mod_eq_of_lt (by omega)]

theorem slot_injective (r : RingBuffer α n) {i j : Nat} (hi : i < n) (hj : j < n)
    (h : r.slot i = r.slot j) : i = j := by
  have hhead := r.head_lt
  rw [slot_eq r hi, slot_eq r hj] at h
  split at h <;> split at h <;> omega

/-- The element `i` places behind the head. -/
def cell (r : RingBuffer α n) (i : Nat) : α :=
  have := r.slot_lt i
  r.slots[r.slot i]

/-- The queued elements, next one first. -/
def contents (r : RingBuffer α n) : List α := (List.range r.count).map r.cell

@[simp] theorem length_contents (r : RingBuffer α n) : r.contents.length = r.count := by
  simp [contents]

/-- A ring without elements, whatever its slots hold. -/
def empty (slots : Vector α n) (hn : 0 < n) : RingBuffer α n := ⟨slots, 0, 0, hn, Nat.zero_le n⟩

def push (r : RingBuffer α n) (value : α) (h : r.count < n) : RingBuffer α n :=
  { r with
    slots := r.slots.set (r.slot r.count) value (r.slot_lt _)
    count := r.count + 1
    count_le := h }

def pop (r : RingBuffer α n) : RingBuffer α n :=
  { r with
    head := r.slot 1
    count := r.count - 1
    head_lt := r.slot_lt 1
    count_le := Nat.le_trans (Nat.sub_le _ _) r.count_le }

theorem cell_push (r : RingBuffer α n) (value : α) (h : r.count < n) {i : Nat} (hi : i ≤ r.count) :
    (r.push value h).cell i = if i = r.count then value else r.cell i := by
  have hpush := r.slot_lt i
  have hget : (r.push value h).cell i =
      (r.slots.set (r.slot r.count) value (r.slot_lt _))[r.slot i] := rfl
  rw [hget, Vector.getElem_set]
  by_cases heq : i = r.count
  · rw [if_pos heq, if_pos (heq ▸ rfl)]
  · have hne : r.slot r.count ≠ r.slot i := by
      intro hslot
      exact heq (r.slot_injective h (by omega) hslot).symm
    rw [if_neg hne, if_neg heq]
    rfl

/-- Pushing appends at the back. -/
theorem contents_push (r : RingBuffer α n) (value : α) (h : r.count < n) :
    (r.push value h).contents = r.contents ++ [value] := by
  have hcount : (r.push value h).count = r.count + 1 := rfl
  rw [contents, hcount, List.range_succ, List.map_append, List.map_singleton,
    cell_push r value h (Nat.le_refl _), if_pos rfl, contents]
  congr 1
  apply List.map_congr_left
  intro i hi
  have hlt : i < r.count := List.mem_range.mp hi
  rw [cell_push r value h (Nat.le_of_lt hlt), if_neg (Nat.ne_of_lt hlt)]

theorem cell_pop (r : RingBuffer α n) (i : Nat) : r.pop.cell i = r.cell (i + 1) := by
  have hslot : r.pop.slot i = r.slot (i + 1) := by
    simp only [slot, pop, Nat.mod_add_mod]
    rw [Nat.add_assoc, Nat.add_comm 1 i]
  simp only [cell, hslot]
  rfl

/-- Popping removes the front. -/
theorem contents_pop (r : RingBuffer α n) (h : 0 < r.count) :
    r.contents = r.cell 0 :: r.pop.contents := by
  obtain ⟨count, hcount⟩ : ∃ count, r.count = count + 1 := ⟨r.count - 1, by omega⟩
  have hpop : r.pop.count = count := by simp [pop, hcount]
  rw [contents, contents, hcount, hpop, List.range_succ_eq_map, List.map_cons, List.map_map]
  congr 1
  apply List.map_congr_left
  intro i _
  exact (r.cell_pop i).symm

end RingBuffer
