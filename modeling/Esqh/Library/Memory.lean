import Mathlib.Tactic.Common

/-!
Byte and record arrays whose every access is checked. A read or a write outside
the array stops the computation with the offending index, so a computation that
returns has stayed inside every array it was given. `Vector.splice` is the
value that a run of consecutive writes leaves behind.
-/

namespace Memory

universe u

variable {α β γ : Type u} {n m : Nat}

/-- An access outside an array of the given length. -/
structure OutOfBounds where
  index : Nat
  length : Nat
  deriving DecidableEq, Repr

/-- A computation on arrays: a value, or the first access out of bounds. -/
abbrev Access (β : Type u) := Except OutOfBounds β

def read (source : Vector α n) (index : Nat) : Access α :=
  if h : index < n then .ok source[index] else .error ⟨index, n⟩

def write (target : Vector α n) (index : Nat) (value : α) : Access (Vector α n) :=
  if h : index < n then .ok (target.set index value) else .error ⟨index, n⟩

/-- Copy `length` elements, in ascending order, from `source` at `s` to
`target` at `t`. -/
def copy (target : Vector α n) (t : Nat) (source : Vector α m) (s : Nat) :
    Nat → Access (Vector α n)
  | 0 => .ok target
  | length + 1 => do
      let target ← copy target t source s length
      let value ← read source (s + length)
      write target (t + length) value

@[simp] theorem ok_bind (a : β) (f : β → Access γ) :
    (Except.ok a >>= f : Access γ) = f a := rfl

theorem read_of_lt (source : Vector α n) {index : Nat} (h : index < n) :
    read source index = .ok source[index] := by
  simp [read, h]

/-- The array with `values` in place of what stood from `offset` on. -/
def splice (target : Vector α n) (offset : Nat) (values : List α) : Vector α n :=
  Vector.ofFn fun i =>
    if offset ≤ i.val then values.getD (i.val - offset) target[i] else target[i]

theorem getElem_splice (target : Vector α n) (offset : Nat) (values : List α)
    (i : Nat) (hi : i < n) :
    (splice target offset values)[i] =
      if offset ≤ i then values.getD (i - offset) target[i] else target[i] := by
  simp [splice]

@[simp] theorem splice_nil (target : Vector α n) (offset : Nat) :
    splice target offset [] = target := by
  ext i hi
  simp [getElem_splice]

/-- Consecutive runs of writes are one run of writes. -/
theorem splice_splice (target : Vector α n) (offset next : Nat) (first second : List α)
    (h : next = offset + first.length) :
    splice (splice target offset first) next second =
      splice target offset (first ++ second) := by
  subst h
  ext i hi
  simp only [getElem_splice, List.getD_eq_getElem?_getD]
  by_cases hlow : offset ≤ i
  · by_cases hhigh : offset + first.length ≤ i
    · rw [List.getElem?_append_right (by omega)]
      simp [hlow, hhigh, show i - offset - first.length = i - (offset + first.length) by omega,
        List.getElem?_eq_none (show first.length ≤ i - offset by omega)]
    · rw [List.getElem?_append_left (by omega)]
      simp [hlow, hhigh]
  · simp [hlow, show ¬ offset + first.length ≤ i by omega]

theorem write_eq_splice (target : Vector α n) {index : Nat} (value : α) (h : index < n) :
    write target index value = .ok (splice target index [value]) := by
  simp only [write, h, dif_pos, Except.ok.injEq]
  ext i hi
  rw [getElem_splice, Vector.getElem_set]
  by_cases heq : index = i
  · subst heq
    simp
  · by_cases hle : index ≤ i
    · have hpos : i - index = (i - index - 1) + 1 := by omega
      rw [if_neg heq, if_pos hle, hpos]
      simp
    · rw [if_neg heq, if_neg hle]

theorem copy_eq_splice (target : Vector α n) (t : Nat) (source : Vector α m) (s : Nat)
    (length : Nat) (ht : t + length ≤ n) (hs : s + length ≤ m) :
    copy target t source s length =
      .ok (splice target t ((source.toList.drop s).take length)) := by
  induction length with
  | zero => simp [copy]
  | succ length ih =>
      have hget : (source.toList.drop s)[length]? = some source[s + length] := by
        simp [List.getElem?_drop, show s + length < m by omega]
      have hlen : ((source.toList.drop s).take length).length = length := by
        simp
        omega
      rw [copy, ih (by omega) (by omega), ok_bind, read_of_lt _ (by omega), ok_bind,
        write_eq_splice _ _ (by omega), List.take_add_one, hget, Option.toList_some,
        splice_splice _ _ _ _ _ (by rw [hlen])]

/-- What has just been spliced in at the front is what the front now holds. -/
theorem take_splice_zero (target : Vector α n) (values : List α) (h : values.length ≤ n) :
    (splice target 0 values).toList.take values.length = values := by
  apply List.ext_getElem
  · simp [h]
  · intro i hi hi'
    simp [getElem_splice, hi']

/-- Behind what is spliced in at the front nothing changes. -/
theorem splice_getElem?_of_le (target : Vector α n) (values : List α) {i : Nat}
    (h : values.length ≤ i) : (splice target 0 values)[i]? = target[i]? := by
  by_cases hi : i < n
  · rw [Vector.getElem?_eq_getElem hi, Vector.getElem?_eq_getElem hi, getElem_splice,
      if_pos (Nat.zero_le i), List.getD_eq_getElem?_getD, List.getElem?_eq_none (by omega),
      Option.getD_none]
  · rw [Vector.getElem?_eq_none (by omega), Vector.getElem?_eq_none (by omega)]

/-- The first `k` elements as an array of their own. -/
def front (source : Vector α n) (k : Nat) (h : k ≤ n) : Vector α k :=
  (source.take k).cast (Nat.min_eq_left h)

@[simp] theorem toList_front (source : Vector α n) (k : Nat) (h : k ≤ n) :
    (front source k h).toList = source.toList.take k := by
  simp [front, Vector.toList]

/-- A whole array spliced over is the new values. -/
theorem toList_splice_zero (target : Vector α n) (values : List α) (h : values.length = n) :
    (splice target 0 values).toList = values := by
  have hall := take_splice_zero target values (Nat.le_of_eq h)
  rwa [List.take_of_length_le (by simp [h])] at hall

/-- Writing the front back changes nothing. -/
theorem splice_front (source : Vector α n) (k : Nat) (h : k ≤ n) :
    splice source 0 (front source k h).toList = source := by
  ext i hi
  rw [getElem_splice, if_pos (Nat.zero_le i), toList_front, List.getD_eq_getElem?_getD,
    List.getElem?_take]
  split_ifs <;> simp [hi]

end Memory
