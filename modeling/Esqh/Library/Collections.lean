import Mathlib.Data.List.Induction
import Mathlib.Data.List.Sort

/-!
Two of Python's collections: stable sorting by a key, and dictionaries that keep
the order in which their keys were first inserted.
-/

namespace Collections

variable {α β κ ν : Type*}

/-- Ascending by key; elements with equal keys keep their order. -/
def sortedBy [LinearOrder κ] (key : α → κ) (xs : List α) : List α :=
  xs.insertionSort (fun a b => key a ≤ key b)

@[simp] theorem mem_sortedBy [LinearOrder κ] (key : α → κ) {xs : List α} {x : α} :
    x ∈ sortedBy key xs ↔ x ∈ xs :=
  List.mem_insertionSort _

theorem perm_sortedBy [LinearOrder κ] (key : α → κ) (xs : List α) : (sortedBy key xs).Perm xs :=
  List.perm_insertionSort _ xs

/-- Where the key tells elements apart only the elements count, not the order in
which they come. -/
theorem sortedBy_eq_of_perm [LinearOrder κ] (key : α → κ) {xs ys : List α} (h : xs.Perm ys)
    (hinj : ∀ a ∈ xs, ∀ b ∈ xs, key a = key b → a = b) : sortedBy key xs = sortedBy key ys := by
  have hsorted (zs : List α) : (sortedBy key zs).Pairwise (fun a b => key a ≤ key b) :=
    List.pairwise_insertionSort (fun a b => key a ≤ key b) zs
  apply List.Perm.eq_of_pairwise _ (hsorted xs) (hsorted ys)
  · exact (perm_sortedBy key xs).trans (h.trans (perm_sortedBy key ys).symm)
  · intro a b ha hb hab hba
    have hb' : b ∈ xs := h.mem_iff.mpr ((mem_sortedBy key).mp hb)
    exact hinj a ((mem_sortedBy key).mp ha) b hb' (le_antisymm hab hba)

theorem perm_of_sortedBy_eq [LinearOrder κ] (key : α → κ) {xs ys : List α}
    (h : sortedBy key xs = sortedBy key ys) : xs.Perm ys := by
  have hperm := perm_sortedBy key xs
  rw [h] at hperm
  exact hperm.symm.trans (perm_sortedBy key ys)

theorem sortedBy_id_eq_of_perm [LinearOrder κ] {xs ys : List κ} (h : xs.Perm ys) :
    sortedBy id xs = sortedBy id ys :=
  sortedBy_eq_of_perm id h fun _ _ _ _ heq => heq

@[simp] theorem sortedBy_eq_nil_iff [LinearOrder κ] (key : α → κ) {xs : List α} :
    sortedBy key xs = [] ↔ xs = [] := by
  simp only [List.eq_nil_iff_forall_not_mem, mem_sortedBy]

/-- Where no key repeats the order is strict. -/
theorem map_sortedBy_pairwise_lt [LinearOrder κ] (key : α → κ) {xs : List α}
    (h : (xs.map key).Nodup) : ((sortedBy key xs).map key).Pairwise (· < ·) := by
  have hsorted : ((sortedBy key xs).map key).Pairwise (· ≤ ·) :=
    List.pairwise_map.mpr (List.pairwise_insertionSort (fun a b => key a ≤ key b) xs)
  have hnodup : ((sortedBy key xs).map key).Pairwise (· ≠ ·) :=
    ((perm_sortedBy key xs).map key).nodup_iff.mpr h
  exact hsorted.imp₂ (fun _ _ hle hne => lt_of_le_of_ne hle hne) hnodup

theorem sortedBy_id_pairwise_lt [LinearOrder κ] {xs : List κ} (h : xs.Nodup) :
    (sortedBy id xs).Pairwise (· < ·) := by
  have hmap := map_sortedBy_pairwise_lt (id : κ → κ) (by rwa [List.map_id])
  rwa [List.map_id] at hmap

section Images

/-! Lists whose images are the same up to their order. -/

variable {xs ys : List α}

theorem filterMap_perm {f : α → Option β} (h : (xs.map f).Perm (ys.map f)) :
    (xs.filterMap f).Perm (ys.filterMap f) := by
  have hid (zs : List α) : zs.filterMap f = (zs.map f).filterMap id := by
    rw [List.filterMap_map]
    rfl
  rw [hid xs, hid ys]
  exact h.filterMap id

theorem any_eq_of_perm {f : α → β} (h : (xs.map f).Perm (ys.map f)) (p : β → Bool) :
    (xs.any fun x => p (f x)) = ys.any fun x => p (f x) := by
  have hmap (zs : List α) : (zs.any fun x => p (f x)) = (zs.map f).any p := by
    rw [List.any_map]
    rfl
  rw [hmap xs, hmap ys]
  exact h.any_eq

theorem all_eq_of_perm {f : α → β} (h : (xs.map f).Perm (ys.map f)) (p : β → Bool) :
    (xs.all fun x => p (f x)) = ys.all fun x => p (f x) := by
  rw [List.all_eq_not_any_not, List.all_eq_not_any_not]
  exact congrArg _ (any_eq_of_perm h fun image => !p image)

end Images

/-- Key-value pairs in insertion order, every key once. -/
structure Dict (κ ν : Type*) where
  entries : List (κ × ν)
  nodup : (entries.map Prod.fst).Nodup

namespace Dict

def empty : Dict κ ν := ⟨[], List.nodup_nil⟩

def keys (d : Dict κ ν) : List κ := d.entries.map Prod.fst

def values (d : Dict κ ν) : List ν := d.entries.map Prod.snd

variable [DecidableEq κ]

def get? (d : Dict κ ν) (key : κ) : Option ν :=
  (d.entries.find? (fun entry => entry.1 = key)).map Prod.snd

/-- The entries with another value at a key. -/
def replace (key : κ) (value : ν) (entries : List (κ × ν)) : List (κ × ν) :=
  entries.map fun entry => if entry.1 = key then (key, value) else entry

theorem map_fst_replace (key : κ) (value : ν) (entries : List (κ × ν)) :
    (replace key value entries).map Prod.fst = entries.map Prod.fst := by
  rw [replace, List.map_map]
  apply List.map_congr_left
  intro entry _
  by_cases h : entry.1 = key <;> simp [h]

/-- A new key goes to the end, a known one keeps its place. -/
def insert (d : Dict κ ν) (key : κ) (value : ν) : Dict κ ν :=
  if h : key ∈ d.keys then
    ⟨replace key value d.entries, by rw [map_fst_replace]; exact d.nodup⟩
  else
    ⟨d.entries ++ [(key, value)], by
      rw [List.map_append, List.map_singleton]
      exact List.Nodup.append d.nodup (List.nodup_singleton key)
        (List.disjoint_singleton.mpr h)⟩

/-- The dictionary of a comprehension: later pairs overwrite earlier ones. -/
def ofPairs (pairs : List (κ × ν)) : Dict κ ν :=
  pairs.foldl (fun d pair => d.insert pair.1 pair.2) empty

theorem mem_keys_insert (d : Dict κ ν) (key key' : κ) (value : ν) :
    key' ∈ (d.insert key value).keys ↔ key' ∈ d.keys ∨ key' = key := by
  unfold insert
  split
  next h =>
    simp only [keys, map_fst_replace]
    constructor
    · exact .inl
    · rintro (hmem | rfl)
      · exact hmem
      · exact h
  next => simp [keys]

theorem mem_entries_insert {d : Dict κ ν} {key : κ} {value : ν} {entry : κ × ν}
    (h : entry ∈ (d.insert key value).entries) : entry ∈ d.entries ∨ entry = (key, value) := by
  unfold insert at h
  split at h
  next =>
    obtain ⟨old, hmem, hold⟩ := List.mem_map.mp h
    by_cases hkey : old.1 = key
    · exact .inr (by rw [← hold, if_pos hkey])
    · exact .inl (by rwa [← hold, if_neg hkey])
  next => simpa using h

theorem mem_keys_ofPairs (pairs : List (κ × ν)) (key : κ) :
    key ∈ (ofPairs pairs).keys ↔ key ∈ pairs.map Prod.fst := by
  induction pairs using List.reverseRecOn with
  | nil => simp [ofPairs, empty, keys]
  | append_singleton pairs pair ih =>
      rw [ofPairs, List.foldl_append, List.foldl_cons, List.foldl_nil, mem_keys_insert,
        List.map_append, List.mem_append]
      exact or_congr ih (by simp)

theorem mem_of_mem_entries_ofPairs {pairs : List (κ × ν)} {entry : κ × ν}
    (h : entry ∈ (ofPairs pairs).entries) : entry ∈ pairs := by
  induction pairs using List.reverseRecOn with
  | nil => exact h
  | append_singleton pairs pair ih =>
      rw [ofPairs, List.foldl_append, List.foldl_cons, List.foldl_nil] at h
      rcases mem_entries_insert h with hold | rfl
      · exact List.mem_append_left _ (ih hold)
      · exact List.mem_append_right _ (List.mem_singleton.mpr rfl)

/-- Where no key repeats, the pairs are kept as they are. -/
theorem entries_ofPairs {pairs : List (κ × ν)} (h : (pairs.map Prod.fst).Nodup) :
    (ofPairs pairs).entries = pairs := by
  induction pairs using List.reverseRecOn with
  | nil => rfl
  | append_singleton pairs pair ih =>
      rw [List.map_append, List.nodup_append] at h
      obtain ⟨hpairs, _, hfresh⟩ := h
      have hentries := ih hpairs
      have hkey : pair.1 ∉ (ofPairs pairs).keys := by
        rw [keys, hentries]
        intro hmem
        exact hfresh pair.1 hmem pair.1 (List.mem_singleton.mpr rfl) rfl
      have hlast : (ofPairs (pairs ++ [pair])).entries =
          ((ofPairs pairs).insert pair.1 pair.2).entries := by
        rw [ofPairs, List.foldl_append]
        rfl
      rw [hlast, insert, dif_neg hkey]
      exact congrArg (· ++ [pair]) hentries

theorem values_ofPairs_eq_nil_iff (pairs : List (κ × ν)) :
    (ofPairs pairs).values = [] ↔ pairs = [] := by
  have hkeys := mem_keys_ofPairs pairs
  constructor
  · intro h
    have hnil : (ofPairs pairs).keys = [] := by
      rw [keys, List.map_eq_nil_iff]
      exact List.map_eq_nil_iff.mp h
    rw [hnil] at hkeys
    cases pairs with
    | nil => rfl
    | cons pair _ => simpa using (hkeys pair.1).mpr
  · rintro rfl
    rfl

/-- Looking up a key of a comprehension finds one of its pairs. -/
theorem get?_ofPairs_of_mem {pairs : List (κ × ν)} {key : κ} (h : key ∈ pairs.map Prod.fst) :
    ∃ value, (ofPairs pairs).get? key = some value ∧ (key, value) ∈ pairs := by
  rw [← mem_keys_ofPairs, keys] at h
  obtain ⟨entry, hentry, hkey⟩ := List.mem_map.mp h
  cases hfind : (ofPairs pairs).entries.find? (fun entry => entry.1 = key) with
  | none => exact absurd (List.find?_eq_none.mp hfind entry hentry) (by simp [hkey])
  | some found =>
      have hmem := mem_of_mem_entries_ofPairs (List.mem_of_find?_eq_some hfind)
      have hfound : found.1 = key := by simpa using List.find?_some hfind
      refine ⟨found.2, by rw [get?, hfind, Option.map_some], ?_⟩
      rw [← hfound]
      exact hmem

/-- Where no key repeats, looking up finds exactly the pairs. -/
theorem get?_ofPairs_eq_some_iff {pairs : List (κ × ν)} (h : (pairs.map Prod.fst).Nodup)
    {key : κ} {value : ν} : (ofPairs pairs).get? key = some value ↔ (key, value) ∈ pairs := by
  constructor
  · intro hget
    obtain ⟨entry, hfind, rfl⟩ := Option.map_eq_some_iff.mp hget
    have hkey : entry.1 = key := by simpa using List.find?_some hfind
    rw [← hkey]
    exact mem_of_mem_entries_ofPairs (List.mem_of_find?_eq_some hfind)
  · intro hmem
    obtain ⟨found, hget, hfound⟩ :=
      get?_ofPairs_of_mem (List.mem_map_of_mem (f := Prod.fst) hmem)
    have heq := List.inj_on_of_nodup_map h hmem hfound rfl
    rw [hget, (Prod.mk.inj heq).2]

omit [DecidableEq κ] in
/-- The order of the keys and the pairs, in any order, determine a dictionary. -/
theorem entries_eq_of_perm {entries others : List (κ × ν)} (h : entries.Perm others)
    (hkeys : entries.map Prod.fst = others.map Prod.fst)
    (hnodup : (entries.map Prod.fst).Nodup) : entries = others := by
  have hlength := h.length_eq
  apply List.ext_getElem hlength
  intro i hi hi'
  have hmem : others[i] ∈ entries := h.mem_iff.mpr (List.getElem_mem hi')
  apply List.inj_on_of_nodup_map hnodup (List.getElem_mem hi) hmem
  have hkey := congrArg (fun keys => keys[i]?) hkeys
  simpa [hi, hi'] using hkey

end Dict

end Collections
