import Esqh.Firmware.Config
import Mathlib.Data.List.TakeWhile

/-!
The bounded text copy and comparison of `src/config.c`, for every terminated
source and every capacity. The copy leaves the source's characters cut one
byte below the capacity, with zeros up to it. The comparison is equality of
the two texts cut at the capacity, so it finds a copy equal to its source
exactly when nothing was cut off.
-/

namespace Esqh

open Memory

/-- The characters of a C string: what stands in front of its first zero. -/
def characters {m : Nat} (source : Vector U8 m) : List U8 := source.toList.takeWhile (· ≠ 0)

/-- A string's array cut right behind its terminator. -/
def terminated {m : Nat} (source : Vector U8 m) :
    Vector U8 (characters source ++ [0]).length :=
  text (characters source ++ [0])

/-- A text cut to a capacity with room for its terminator, and zeros up to the
capacity. -/
def padded (capacity : Nat) (text : List U8) : List U8 :=
  text.take (capacity - 1) ++
    List.replicate (capacity - min text.length (capacity - 1)) 0

theorem read_of_drop {n : Nat} (source : Vector U8 n) {index : Nat} {byte : U8} {rest : List U8}
    (h : source.toList.drop index = byte :: rest) : read source index = .ok byte := by
  have hget : source.toList[index]? = some byte := by
    rw [← List.head?_drop, h, List.head?_cons]
  obtain ⟨hlt, hbyte⟩ := List.getElem?_eq_some_iff.mp hget
  rw [read_of_lt source (by simpa using hlt), ← hbyte]
  simp

theorem drop_succ {n : Nat} {source : Vector U8 n} {index : Nat} {byte : U8} {rest : List U8}
    (h : source.toList.drop index = byte :: rest) : source.toList.drop (index + 1) = rest := by
  rw [← List.drop_drop, h, List.drop_succ_cons, List.drop_zero]

theorem clearFrom_eq {n : Nat} (destination : Vector U8 n) (index remaining : Nat)
    (h : index + remaining ≤ n) :
    clearFrom destination index remaining =
      .ok (splice destination index (List.replicate remaining 0)) := by
  induction remaining generalizing destination index with
  | zero => simp [clearFrom]
  | succ remaining ih =>
      rw [clearFrom, write_eq_splice _ _ (by omega), ok_bind, ih _ _ (by omega),
        splice_splice _ _ _ _ _ (by simp)]
      rfl

/-- The copy loop stops at the terminator or one byte below the capacity,
whichever comes first, and the second loop fills the rest up. -/
theorem copyTextFrom_eq {n m : Nat} (destination : Vector U8 n) (source : Vector U8 m)
    (index remaining : Nat) (characters after : List U8)
    (hsource : source.toList.drop index = characters ++ 0 :: after)
    (hne : ∀ c ∈ characters, c ≠ 0) (h : index + remaining ≤ n) :
    copyTextFrom destination source index remaining =
      .ok (splice destination index (padded remaining characters)) := by
  induction remaining generalizing destination index characters with
  | zero => simp [copyTextFrom, padded]
  | succ remaining ih =>
      cases characters with
      | nil =>
          rw [copyTextFrom, read_of_drop source hsource, ok_bind, if_neg (by simp),
            clearFrom_eq _ _ _ h]
          simp [padded]
      | cons c characters =>
          have hc : c ≠ 0 := hne c (by simp)
          rw [copyTextFrom, read_of_drop source hsource, ok_bind]
          cases remaining with
          | zero =>
              rw [if_neg (by simp), clearFrom_eq _ _ _ h]
              simp [padded]
          | succ remaining =>
              rw [if_pos ⟨hc, by omega⟩, write_eq_splice _ _ (by omega), ok_bind,
                ih _ _ characters (drop_succ hsource) (fun b hb => hne b (by simp [hb])) (by omega),
                splice_splice _ _ _ _ _ (by simp)]
              simp [padded]

/-- The comparison loop compares the two texts cut at the rounds it has. -/
theorem textEqualFrom_eq {n m : Nat} (left : Vector U8 n) (right : Vector U8 m)
    (index remaining : Nat) (characters after : List U8)
    (hright : right.toList.drop index = characters ++ 0 :: after)
    (hne : ∀ c ∈ characters, c ≠ 0) (h : index + remaining ≤ n) :
    textEqualFrom left right index remaining =
      .ok (decide (((left.toList.drop index).take remaining).takeWhile (· ≠ 0) =
        characters.take remaining)) := by
  induction remaining generalizing index characters with
  | zero => simp [textEqualFrom]
  | succ remaining ih =>
      have hleft : left.toList.drop index = left[index] :: left.toList.drop (index + 1) := by
        rw [List.drop_eq_getElem_cons (by simp; omega)]
        simp
      rw [textEqualFrom, read_of_lt left (by omega), ok_bind, hleft, List.take_succ_cons]
      cases characters with
      | nil =>
          rw [read_of_drop right hright, ok_bind]
          by_cases hzero : left[index] = 0#8
          · simp [hzero]
          · simp [hzero]
      | cons c characters =>
          have hc : c ≠ 0#8 := hne c (by simp)
          rw [read_of_drop right hright, ok_bind]
          by_cases heq : left[index] = c
          · rw [if_neg (by simpa using heq), if_neg (by rwa [heq]),
              ih _ characters (drop_succ hright) (fun b hb => hne b (by simp [hb])) (by omega)]
            simp [heq, hc]
          · rw [if_pos heq]
            by_cases hzero : left[index] = 0#8
            · simp [hzero]
            · simp [hzero, heq]

theorem ne_zero_of_mem_characters {m : Nat} (source : Vector U8 m) :
    ∀ c ∈ characters source, c ≠ 0 := by
  intro c hc
  simpa using List.mem_takeWhile_imp hc

theorem toList_eq_characters {m : Nat} (source : Vector U8 m) (h : 0 ∈ source.toList) :
    ∃ after, source.toList = characters source ++ 0 :: after := by
  have hsplit : characters source ++ source.toList.dropWhile (· ≠ 0) = source.toList :=
    List.takeWhile_append_dropWhile
  cases hrest : source.toList.dropWhile (· ≠ 0) with
  | nil =>
      rw [hrest, List.append_nil] at hsplit
      rw [← hsplit] at h
      exact absurd rfl (ne_zero_of_mem_characters source 0 h)
  | cons byte after =>
      have hzero : byte = 0 := by
        have hstop := List.head?_dropWhile_not (fun byte : U8 => decide (byte ≠ 0)) source.toList
        rw [hrest] at hstop
        simpa using hstop
      refine ⟨after, ?_⟩
      rw [← hzero, ← hrest, hsplit]

theorem zero_mem_terminated {m : Nat} (source : Vector U8 m) :
    0 ∈ (terminated source).toList := by
  simp [terminated, text]

theorem characters_terminated {m : Nat} (source : Vector U8 m) :
    characters (terminated source) = characters source := by
  have hall : ∀ c ∈ characters source, decide (c ≠ 0) = true := by
    intro c hc
    exact decide_eq_true (ne_zero_of_mem_characters source c hc)
  have hstop : [(0 : U8)].takeWhile (· ≠ 0) = [] := rfl
  change ((characters source ++ [0]).takeWhile (· ≠ 0)) = characters source
  rw [List.takeWhile_append_of_pos hall, hstop, List.append_nil]

theorem copyText_eq {n m : Nat} (destination : Vector U8 n) (source : Vector U8 m)
    (capacity : Nat) (hnul : 0 ∈ source.toList) (hpos : 1 ≤ capacity) (hle : capacity ≤ n) :
    copyText (some destination) capacity source =
      .ok (some (splice destination 0 (padded capacity (characters source)))) := by
  obtain ⟨after, hsource⟩ := toList_eq_characters source hnul
  have hloop := copyTextFrom_eq destination source 0 capacity (characters source) after
    (by simpa using hsource) (ne_zero_of_mem_characters source) (by omega)
  simp only [copyText]
  rw [if_neg (by omega), hloop]
  rfl

theorem textEqual_eq {n m : Nat} (left : Vector U8 n) (right : Vector U8 m) (capacity : Nat)
    (hnul : 0 ∈ right.toList) (hle : capacity ≤ n) :
    textEqual left right capacity =
      .ok (decide ((left.toList.take capacity).takeWhile (· ≠ 0) =
        (characters right).take capacity)) := by
  obtain ⟨after, hright⟩ := toList_eq_characters right hnul
  exact textEqualFrom_eq left right 0 capacity (characters right) after (by simpa using hright)
    (ne_zero_of_mem_characters right) (by omega)

@[simp] theorem length_padded (capacity : Nat) (text : List U8) :
    (padded capacity text).length = capacity := by
  simp only [padded, List.length_append, List.length_take, List.length_replicate]
  omega

theorem takeWhile_padded (capacity : Nat) (text : List U8) (hpos : 1 ≤ capacity)
    (hne : ∀ c ∈ text, c ≠ 0) :
    (padded capacity text).takeWhile (· ≠ 0) = text.take (capacity - 1) := by
  have hall : ∀ c ∈ text.take (capacity - 1), decide (c ≠ 0) = true := by
    intro c hc
    exact decide_eq_true (hne c (List.mem_of_mem_take hc))
  have hzeros : 0 < capacity - min text.length (capacity - 1) := by omega
  rw [padded, List.takeWhile_append_of_pos hall]
  simp

theorem zero_mem_padded (capacity : Nat) (text : List U8) (hpos : 1 ≤ capacity) :
    0 ∈ padded capacity text := by
  apply List.mem_append_right
  apply List.mem_replicate.mpr
  exact ⟨by omega, rfl⟩

theorem take_pred_eq_take_iff (text : List U8) (capacity : Nat) (hpos : 1 ≤ capacity) :
    text.take (capacity - 1) = text.take capacity ↔ text.length < capacity := by
  constructor
  · intro h
    have hlen := congrArg List.length h
    simp only [List.length_take] at hlen
    omega
  · intro h
    rw [List.take_of_length_le (by omega), List.take_of_length_le (by omega)]

/-- The bytes at the places agree up to and including their first zero, or at
all of the first `capacity` places. -/
def AgreeWithin (left right : Nat → Option U8) (capacity : Nat) : Prop :=
  (∃ k < capacity, left k = some 0 ∧ (∀ i < k, left i ≠ some 0) ∧ ∀ i ≤ k, left i = right i) ∨
    ∀ i < capacity, left i = right i

theorem agreeWithin_of_zero {left right : Nat → Option U8} {capacity : Nat}
    (hpos : 0 < capacity) (heq : left 0 = right 0) (hzero : left 0 = some 0) :
    AgreeWithin left right capacity := by
  refine .inl ⟨0, hpos, hzero, fun i hi => absurd hi (Nat.not_lt_zero i), ?_⟩
  intro i hi
  rw [Nat.le_zero.mp hi]
  exact heq

theorem agreeWithin_succ {left right : Nat → Option U8} {capacity : Nat} :
    AgreeWithin left right (capacity + 1) ↔
      left 0 = right 0 ∧
        (left 0 = some 0 ∨
          AgreeWithin (fun i => left (i + 1)) (fun i => right (i + 1)) capacity) := by
  constructor
  · rintro (⟨k, hk, hzero, hbefore, hall⟩ | hall)
    · refine ⟨hall 0 (Nat.zero_le k), ?_⟩
      cases k with
      | zero => exact .inl hzero
      | succ k =>
          exact .inr (.inl ⟨k, by omega, hzero, fun i hi => hbefore (i + 1) (by omega),
            fun i hi => hall (i + 1) (by omega)⟩)
    · exact ⟨hall 0 (by omega), .inr (.inr fun i hi => hall (i + 1) (by omega))⟩
  · rintro ⟨heq, hrest⟩
    by_cases hzero : left 0 = some 0
    · exact agreeWithin_of_zero (Nat.succ_pos capacity) heq hzero
    · rcases hrest.resolve_left hzero with ⟨k, hk, hend, hbefore, hall⟩ | hall
      · refine .inl ⟨k + 1, by omega, hend, ?_, ?_⟩
        · intro i hi
          cases i with
          | zero => exact hzero
          | succ i => exact hbefore i (by omega)
        · intro i hi
          cases i with
          | zero => exact heq
          | succ i => exact hall i (by omega)
      · refine .inr fun i hi => ?_
        cases i with
        | zero => exact heq
        | succ i => exact hall i (by omega)

/-- Equality of the texts in front of the first zero, in places of the arrays. -/
theorem takeWhile_eq_take_iff (bytes characters after : List U8)
    (hne : ∀ c ∈ characters, c ≠ 0) :
    bytes.takeWhile (· ≠ 0) = characters.take bytes.length ↔
      AgreeWithin (bytes[·]?) ((characters ++ 0 :: after)[·]?) bytes.length := by
  induction bytes generalizing characters with
  | nil => simp [AgreeWithin]
  | cons byte bytes ih =>
      rw [List.length_cons, agreeWithin_succ]
      cases characters with
      | nil =>
          by_cases hzero : byte = 0#8
          · simp [hzero]
          · simp [hzero]
      | cons c characters =>
          have hc : c ≠ 0#8 := hne c (by simp)
          have htail := ih characters (fun b hb => hne b (by simp [hb]))
          by_cases heq : byte = c
          · simpa [heq, hc] using htail
          · by_cases hzero : byte = 0#8
            · simp [hzero, hc.symm]
            · simp [hzero, heq]

/-- For every terminated source and every capacity: the copy and the comparison
stay inside the source up to its terminator, the copy writes its capacity and
nothing else, and comparing it with its source tells whether something was cut
off. Against any array of the capacity's size, the comparison stays inside that
array and finds exactly the agreement up to a zero or the capacity. -/
theorem copyText_textEqual {m : Nat} (source : Vector U8 m) (hnul : 0 ∈ source.toList) :
    (∀ (n : Nat) (destination : Vector U8 n) (capacity : Nat), 1 ≤ capacity → capacity ≤ n →
      ∃ copied : Vector U8 n,
        copyText (some destination) capacity source = .ok (some copied) ∧
        copyText (some destination) capacity (terminated source) = .ok (some copied) ∧
        (∀ i, capacity ≤ i → copied[i]? = destination[i]?) ∧
        0 ∈ copied.toList.take capacity ∧
        copied.toList.take capacity =
          (characters source).take (min (characters source).length (capacity - 1)) ++
            List.replicate (capacity - min (characters source).length (capacity - 1)) 0 ∧
        textEqual copied source capacity =
          .ok (decide ((characters source).length < capacity))) ∧
    ∀ (capacity : Nat) (left : Vector U8 capacity), ∃ equal,
      textEqual left source capacity = .ok equal ∧
      textEqual left (terminated source) capacity = .ok equal ∧
      (equal = true ↔ AgreeWithin (left[·]?) (source[·]?) capacity) := by
  have hcut := zero_mem_terminated source
  constructor
  · intro n destination capacity hpos hle
    have htake : (splice destination 0 (padded capacity (characters source))).toList.take
        capacity = padded capacity (characters source) := by
      have h := take_splice_zero destination (padded capacity (characters source)) (by simpa)
      rwa [length_padded] at h
    refine ⟨splice destination 0 (padded capacity (characters source)),
      copyText_eq destination source capacity hnul hpos hle, ?_, ?_, ?_, ?_, ?_⟩
    · rw [copyText_eq destination (terminated source) capacity hcut hpos hle,
        characters_terminated]
    · intro i hi
      exact splice_getElem?_of_le destination _ (by simpa using hi)
    · rw [htake]
      exact zero_mem_padded capacity (characters source) hpos
    · rw [htake, padded, Nat.min_comm, ← List.take_eq_take_min]
    · rw [textEqual_eq _ source capacity hnul hle, htake,
        takeWhile_padded capacity _ hpos (ne_zero_of_mem_characters source)]
      exact congrArg Except.ok (decide_eq_decide.mpr (take_pred_eq_take_iff _ capacity hpos))
  · intro capacity left
    have hall : left.toList.take capacity = left.toList := List.take_of_length_le (by simp)
    obtain ⟨after, hsource⟩ := toList_eq_characters source hnul
    refine ⟨_, textEqual_eq left source capacity hnul (Nat.le_refl capacity), ?_, ?_⟩
    · rw [textEqual_eq left (terminated source) capacity hcut (Nat.le_refl capacity),
        characters_terminated]
    · have hagree := takeWhile_eq_take_iff left.toList (characters source) after
        (ne_zero_of_mem_characters source)
      rw [← hsource] at hagree
      rw [decide_eq_true_iff, hall]
      simpa using hagree

/-- The version literal fits its eight-byte field together with its
terminator. -/
theorem copyText_textEqual_version :
    ∃ copied : Vector U8 8,
      copyText (some (Vector.replicate 8 0xff)) 8 (text esqhVersion) = .ok (some copied) ∧
      textEqual copied (text esqhVersion) 8 = .ok true := by
  have hnul : 0 ∈ (text esqhVersion).toList := by decide
  have hlen : (characters (text esqhVersion)).length < 8 := by decide
  obtain ⟨copied, hcopied, -, -, -, -, hequal⟩ :=
    (copyText_textEqual (text esqhVersion) hnul).1 8 (Vector.replicate 8 0xff) 8 (by decide)
      (by decide)
  rw [decide_eq_true hlen] at hequal
  exact ⟨copied, hcopied, hequal⟩

end Esqh
