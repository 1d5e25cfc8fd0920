import Esqh.Library.Utf8
import Esqh.Qualification.Types

/-!
The string operations that `tools/qualification.py` uses, and what they do to a
property of all characters of a text.
-/

namespace Esqh.Qualification

open Utf8

/-- The white space that `str.strip` removes. -/
def isSpace (point : CodePoint) : Bool :=
  let value := point.val
  (9 ≤ value ∧ value ≤ 13) ∨ (28 ≤ value ∧ value ≤ 32) ∨ value = 0x85 ∨ value = 0xa0 ∨
    value = 0x1680 ∨ (0x2000 ≤ value ∧ value ≤ 0x200a) ∨ value = 0x2028 ∨ value = 0x2029 ∨
    value = 0x202f ∨ value = 0x205f ∨ value = 0x3000

def strip (text : Str) : Str :=
  ((text.dropWhile isSpace).reverse.dropWhile isSpace).reverse

def join (separator : Str) (texts : List Str) : Str := separator.intercalate texts

/-- Another text for every occurrence of a character. -/
def replace (old : CodePoint) (new text : Str) : Str :=
  text.flatMap fun point => if point = old then new else [point]

def lineFeed : CodePoint := 10

def carriageReturn : CodePoint := 13

/-- Every line end becomes a line feed; one that follows a carriage return
belongs to it. -/
def translateNewlines (afterReturn : Bool) : Str → Str
  | [] => []
  | point :: text =>
    if point = carriageReturn then lineFeed :: translateNewlines true text
    else if point = lineFeed ∧ afterReturn then translateNewlines false text
    else point :: translateNewlines false text

/-- The text of a file that is opened with universal newlines. -/
def universalNewlines (text : Str) : Str := translateNewlines false text

section Points

variable {P : CodePoint → Prop}

/-- Every character of the text. -/
def EveryPoint (P : CodePoint → Prop) (text : Str) : Prop := ∀ point ∈ text, P point

@[simp] theorem everyPoint_nil : EveryPoint P [] := List.forall_mem_nil _

@[simp] theorem everyPoint_append (text more : Str) :
    EveryPoint P (text ++ more) ↔ EveryPoint P text ∧ EveryPoint P more :=
  List.forall_mem_append

theorem everyPoint_join {separator : Str} (h : EveryPoint P separator) (texts : List Str) :
    EveryPoint P (join separator texts) ↔ ∀ text ∈ texts, EveryPoint P text :=
  forall_mem_intercalate h texts

theorem everyPoint_replace {old : CodePoint} {new : Str} (hnew : EveryPoint P new) (text : Str) :
    EveryPoint P (replace old new text) ↔ EveryPoint (fun point => point = old ∨ P point) text := by
  simp only [EveryPoint, replace, List.forall_mem_flatMap]
  apply forall₂_congr
  intro point _
  split
  next hold => exact iff_of_true hnew (.inl hold)
  next hother => simp [hother]

theorem val_ofNat_toNat (character : Char) :
    (Fin.ofNat 0x110000 character.toNat).val = character.toNat := by
  apply Nat.mod_eq_of_lt
  rcases character.valid with h | ⟨_, h⟩
  · exact h.trans (by decide)
  · exact h

theorem str_append (first second : String) : str (first ++ second) = str first ++ str second := by
  simp only [str, String.toList_append, List.map_append]

theorem str_injective : Function.Injective str := by
  intro literal other h
  rw [← String.toList_inj]
  apply List.map_injective_iff.mpr _ h
  intro character next heq
  have hvalue := congrArg Fin.val heq
  rw [val_ofNat_toNat, val_ofNat_toNat] at hvalue
  exact Char.toNat_inj.mp hvalue

/-- Texts are ordered as the characters of their literals are. -/
theorem str_lt_str {literal other : String} (h : literal.toList < other.toList) :
    str literal < str other := by
  apply List.map_lt _ h
  intro character next hlt
  rw [Fin.lt_def, val_ofNat_toNat, val_ofNat_toNat]
  exact hlt

/-- The characters that the program's own texts are made of. -/
def Plain (character : Char) : Bool :=
  (32 ≤ character.toNat ∧ character.toNat ≤ 126) ∨ character.toNat = 0x2014

def HoldsOfPlain (P : CodePoint → Prop) : Prop :=
  ∀ character, Plain character → P (Fin.ofNat 0x110000 character.toNat)

theorem HoldsOfPlain.mono {Q : CodePoint → Prop} (h : HoldsOfPlain P)
    (himp : ∀ point, P point → Q point) : HoldsOfPlain Q :=
  fun character hplain => himp _ (h character hplain)

theorem everyPoint_str (hplain : HoldsOfPlain P) {literal : String}
    (h : literal.toList.all Plain) : EveryPoint P (str literal) := by
  intro point hpoint
  obtain ⟨character, hmem, rfl⟩ := List.mem_map.mp hpoint
  exact hplain character (List.all_eq_true.mp h character hmem)

/-- A literal is checked character by character, without decoding it. -/
theorem plain_literal {characters : List Char} (h : characters.all Plain) :
    (String.ofList characters).toList.all Plain := by
  rwa [String.toList_ofList]

theorem plain_of_isDigit {character : Char} (h : character.isDigit) : Plain character := by
  simp only [Char.isDigit, Bool.and_eq_true, decide_eq_true_eq] at h
  have hlow : 48 ≤ character.toNat := UInt32.le_iff_toNat_le.mp h.1
  have hhigh : character.toNat ≤ 57 := UInt32.le_iff_toNat_le.mp h.2
  simp only [Plain, decide_eq_true_eq]
  omega

theorem plain_repr (n : Nat) : n.repr.toList.all Plain := by
  rw [Nat.repr_eq_ofList_toDigits, String.toList_ofList, List.all_eq_true]
  intro character hmem
  exact plain_of_isDigit (Nat.isDigit_of_mem_toDigits (by decide) (by decide) hmem)

theorem everyPoint_intText (hplain : HoldsOfPlain P) (n : Int) : EveryPoint P (intText n) := by
  have htext : toString n = n.repr := rfl
  apply everyPoint_str hplain
  rw [htext, Int.repr_eq_if]
  split
  · exact plain_repr _
  · rw [String.toList_append, List.all_append, plain_repr]
    rfl

end Points

section Free

@[simp] theorem surrogateFree_str (literal : String) : SurrogateFree (str literal) := by
  rintro point hpoint ⟨hlow, hhigh⟩
  obtain ⟨character, _, rfl⟩ := List.mem_map.mp hpoint
  rw [val_ofNat_toNat] at hlow hhigh
  rcases character.valid with h | ⟨h, _⟩
  · exact absurd hlow (Nat.not_le.mpr h)
  · exact absurd hhigh (Nat.not_le.mpr h)

@[simp] theorem surrogateFree_intText (n : Int) : SurrogateFree (intText n) :=
  surrogateFree_str _

end Free

end Esqh.Qualification
