import Mathlib.Algebra.GroupWithZero.Nat
import Mathlib.Data.List.Basic
import Mathlib.Tactic.Common

/-!
Texts in lines and lines in cells, over any alphabet. A text splits at every
character that ends a line, a carriage return and the feed behind it being one
end. A line splits at every separator that is not escaped, where the escape
character takes the character behind it out of consideration.
-/

namespace Layout

variable {α : Type*} [DecidableEq α]

/-- The characters that end a line, the feed among them. -/
structure Ends (α : Type*) where
  feed : α
  carriage : α
  isEnd : α → Bool
  isEnd_feed : isEnd feed = true

section Lines

variable (ends : Ends α)

/-- The lines of a text whose first line has begun. A feed right behind a
carriage return belongs to it. -/
def splitFrom (afterCarriage : Bool) (line : List α) : List α → List (List α)
  | [] => if line.isEmpty then [] else [line]
  | c :: text =>
    if c = ends.feed ∧ afterCarriage then splitFrom false line text
    else if ends.isEnd c then line :: splitFrom (c = ends.carriage) [] text
    else splitFrom false (line ++ [c]) text

def split (text : List α) : List (List α) := splitFrom ends false [] text

/-- The text has no line end. -/
def OneLine (text : List α) : Prop := ∀ c ∈ text, ends.isEnd c = false

/-- The lines, each with a feed behind it. -/
def terminate (lines : List (List α)) : List α := lines.flatMap fun line => line ++ [ends.feed]

variable {ends}

theorem oneLine_of_mem_splitFrom (afterCarriage : Bool) {line : List α} (h : OneLine ends line)
    (text : List α) : ∀ found ∈ splitFrom ends afterCarriage line text, OneLine ends found := by
  induction text generalizing afterCarriage line with
  | nil =>
      intro found hfound
      unfold splitFrom at hfound
      split_ifs at hfound
      · cases hfound
      · rwa [List.mem_singleton.mp hfound]
  | cons c text ih =>
      rw [splitFrom]
      split_ifs with hfeed hend
      · exact ih false h
      · intro found hfound
        rcases List.mem_cons.mp hfound with rfl | hfound
        · exact h
        · exact ih _ (fun d hd => absurd hd List.not_mem_nil) found hfound
      · apply ih false
        intro d hd
        rcases List.mem_append.mp hd with hd | hd
        · exact h d hd
        · rw [List.mem_singleton.mp hd]
          exact Bool.eq_false_iff.mpr hend

/-- A line without an end stands up to the feed behind it. -/
theorem splitFrom_line (line rest : List α) {text : List α} (h : OneLine ends text) :
    splitFrom ends false line (text ++ ends.feed :: rest) =
      (line ++ text) :: splitFrom ends (ends.feed = ends.carriage) [] rest := by
  induction text generalizing line with
  | nil => simp [splitFrom, ends.isEnd_feed]
  | cons c text ih =>
      have hc : ends.isEnd c = false := h c List.mem_cons_self
      rw [List.cons_append, splitFrom, if_neg (by simp), if_neg (by simp [hc]),
        ih _ (fun d hd => h d (List.mem_cons_of_mem _ hd)), List.append_assoc]
      rfl

/-- Terminated lines are read back exactly if none of them has an end in it. -/
theorem split_terminate_iff (hfeed : ends.feed ≠ ends.carriage) (lines : List (List α)) :
    split ends (terminate ends lines) = lines ↔ ∀ line ∈ lines, OneLine ends line := by
  constructor
  · intro h line hline
    rw [← h] at hline
    exact oneLine_of_mem_splitFrom false (fun d hd => absurd hd List.not_mem_nil) _ line hline
  · intro h
    induction lines with
    | nil => rfl
    | cons line lines ih =>
        have hrest := ih fun other hother => h other (List.mem_cons_of_mem _ hother)
        rw [terminate, List.flatMap_cons, List.append_assoc, List.singleton_append, split,
          splitFrom_line [] _ (h line List.mem_cons_self), List.nil_append,
          decide_eq_false hfeed]
        exact congrArg (line :: ·) hrest

omit [DecidableEq α] in
/-- Lines joined by feeds, with one more at the end. -/
theorem intercalate_append_feed {lines : List (List α)} (h : lines ≠ []) :
    [ends.feed].intercalate lines ++ [ends.feed] = terminate ends lines := by
  induction lines with
  | nil => exact absurd rfl h
  | cons line lines ih =>
      cases lines with
      | nil => simp [terminate, List.intercalate]
      | cons next lines =>
          have htail := ih (List.cons_ne_nil next lines)
          rw [terminate, List.flatMap_cons, ← terminate, ← htail]
          simp [List.intercalate]

theorem mem_splitFrom (hfeed : ends.feed ≠ ends.carriage) {afterCarriage : Bool} {line : List α}
    (hline : afterCarriage → line = []) (before after : List α) {found : List α}
    (h : OneLine ends found) :
    found ∈ splitFrom ends afterCarriage line
      (before ++ ends.feed :: (found ++ ends.feed :: after)) := by
  induction before generalizing afterCarriage line with
  | nil =>
      rw [List.nil_append, splitFrom, if_pos ends.isEnd_feed, decide_eq_false hfeed]
      split_ifs with hcarriage
      · rw [hline hcarriage.2, splitFrom_line [] after h]
        exact List.mem_cons_self
      · rw [splitFrom_line [] after h]
        exact List.mem_cons_of_mem _ List.mem_cons_self
  | cons c before ih =>
      rw [List.cons_append, splitFrom]
      split_ifs
      · exact ih (fun hfalse => absurd hfalse Bool.false_ne_true)
      · exact List.mem_cons_of_mem _ (ih fun _ => rfl)
      · exact ih (fun hfalse => absurd hfalse Bool.false_ne_true)

/-- What stands between two feeds of a line is a line of the text. -/
theorem mem_split_terminate (hfeed : ends.feed ≠ ends.carriage) {lines : List (List α)}
    {before found after : List α} (h : OneLine ends found)
    (hmem : before ++ ends.feed :: (found ++ ends.feed :: after) ∈ lines) :
    found ∈ split ends (terminate ends lines) := by
  obtain ⟨above, below, rfl⟩ := List.append_of_mem hmem
  have htext : terminate ends (above ++
      (before ++ ends.feed :: (found ++ ends.feed :: after)) :: below) =
        (terminate ends above ++ before) ++ ends.feed ::
          (found ++ ends.feed :: (after ++ ends.feed :: terminate ends below)) := by
    simp [terminate]
  rw [htext]
  exact mem_splitFrom hfeed (fun hfalse => absurd hfalse Bool.false_ne_true) _ _ h

end Lines

section Cells

variable (escape separator : α)

/-- How many separators of a text are not escaped, the first character being
escaped or not. -/
def separatorsFrom (escaped : Bool) : List α → Nat
  | [] => 0
  | c :: text =>
    if escaped then separatorsFrom false text
    else if c = escape then separatorsFrom true text
    else (if c = separator then 1 else 0) + separatorsFrom false text

def separators (text : List α) : Nat := separatorsFrom escape separator false text

/-- How many separators of a text are escaped. -/
def escapedFrom (escaped : Bool) : List α → Nat
  | [] => 0
  | c :: text =>
    if escaped then (if c = separator then 1 else 0) + escapedFrom false text
    else escapedFrom (c = escape) text

def escapedSeparators (text : List α) : Nat := escapedFrom escape separator false text

/-- The text with an escape in front of every separator, escaped ones included. -/
def escapeSeparators (text : List α) : List α :=
  text.flatMap fun c => if c = separator then [escape, separator] else [c]

/-- A character that neither escapes nor separates. -/
def Neutral (c : α) : Prop := c ≠ escape ∧ c ≠ separator

variable {escape separator}

/-- What follows a neutral character is counted afresh. -/
theorem separatorsFrom_append_cons (escaped : Bool) (text rest : List α) {c : α}
    (hc : Neutral escape separator c) :
    separatorsFrom escape separator escaped (text ++ c :: rest) =
      separatorsFrom escape separator escaped text + separators escape separator rest := by
  induction text generalizing escaped with
  | nil =>
      cases escaped with
      | false => simp [separatorsFrom, separators, hc.1, hc.2]
      | true => simp [separatorsFrom, separators]
  | cons d text ih =>
      simp only [List.cons_append, separatorsFrom, ih]
      split_ifs <;> omega

/-- An escape in front of an escaped separator frees it. -/
theorem separatorsFrom_escapeSeparators (hne : separator ≠ escape) (escaped : Bool)
    (text : List α) :
    separatorsFrom escape separator escaped (escapeSeparators escape separator text) =
      escapedFrom escape separator escaped text := by
  induction text generalizing escaped with
  | nil => rfl
  | cons c text ih =>
      rw [escapeSeparators, List.flatMap_cons, ← escapeSeparators]
      rcases eq_or_ne c separator with rfl | hseparator
      · cases escaped <;> simp [separatorsFrom, escapedFrom, ih, hne]
      · rcases eq_or_ne c escape with rfl | hescape
        · cases escaped <;> simp [separatorsFrom, escapedFrom, ih, hseparator]
        · cases escaped <;> simp [separatorsFrom, escapedFrom, ih, hseparator, hescape]

theorem separators_escapeSeparators (hne : separator ≠ escape) (text : List α) :
    separators escape separator (escapeSeparators escape separator text) =
      escapedSeparators escape separator text :=
  separatorsFrom_escapeSeparators hne false text

/-- Neutral characters stand for each other. -/
theorem separatorsFrom_map {f : α → α}
    (hf : ∀ c, f c = c ∨ Neutral escape separator c ∧ Neutral escape separator (f c))
    (escaped : Bool) (text : List α) :
    separatorsFrom escape separator escaped (text.map f) =
      separatorsFrom escape separator escaped text := by
  induction text generalizing escaped with
  | nil => rfl
  | cons c text ih =>
      rw [List.map_cons, separatorsFrom, separatorsFrom, ih, ih]
      rcases hf c with hsame | ⟨hc, hfc⟩
      · rw [hsame]
      · rw [if_neg hc.1, if_neg hc.2, if_neg hfc.1, if_neg hfc.2]

section Joined

variable {blank : α} (hblank : Neutral escape separator blank)

include hblank

theorem separators_append_cons (text rest : List α) :
    separators escape separator (text ++ blank :: rest) =
      separators escape separator text + separators escape separator rest :=
  separatorsFrom_append_cons false text rest hblank

theorem separators_cons (rest : List α) :
    separators escape separator (blank :: rest) = separators escape separator rest := by
  simp [separators, separatorsFrom, hblank.1, hblank.2]

theorem separators_intercalate {mark : α} (hmark : Neutral escape separator mark)
    (texts : List (List α)) :
    separators escape separator ([mark, blank].intercalate texts) =
      (texts.map (separators escape separator)).sum := by
  induction texts with
  | nil => rfl
  | cons text texts ih =>
      cases texts with
      | nil => simp
      | cons next texts =>
          rw [List.intercalate_cons_cons, List.append_assoc, List.cons_append,
            separators_append_cons hmark, List.singleton_append, separators_cons hblank, ih]
          rfl

omit hblank in
theorem separators_cons_separator (hne : separator ≠ escape) (rest : List α) :
    separators escape separator (separator :: rest) = 1 + separators escape separator rest := by
  simp [separators, separatorsFrom, hne]

theorem separators_cells (hne : separator ≠ escape) {cells : List (List α)} (h : cells ≠ []) :
    separators escape separator
        ([blank, separator, blank].intercalate cells ++ [blank, separator]) =
      cells.length + (cells.map (separators escape separator)).sum := by
  induction cells with
  | nil => exact absurd rfl h
  | cons cell cells ih =>
      cases cells with
      | nil =>
          rw [List.intercalate_singleton, separators_append_cons hblank,
            separators_cons_separator hne]
          simp [separators, separatorsFrom, Nat.add_comm]
      | cons next cells =>
          have hrest := ih (List.cons_ne_nil next cells)
          rw [List.intercalate_cons_cons, List.append_assoc, List.append_assoc, List.cons_append,
            separators_append_cons hblank, List.cons_append, separators_cons_separator hne,
            List.singleton_append, separators_cons hblank, hrest]
          simp only [List.map_cons, List.sum_cons, List.length_cons]
          omega

/-- A row has one separator more than cells, and those of its cells. -/
theorem separators_row (hne : separator ≠ escape) {cells : List (List α)} (h : cells ≠ []) :
    separators escape separator ([separator, blank] ++
        [blank, separator, blank].intercalate cells ++ [blank, separator]) =
      cells.length + 1 + (cells.map (separators escape separator)).sum := by
  rw [List.append_assoc, List.cons_append, separators_cons_separator hne, List.singleton_append,
    separators_cons hblank, separators_cells hblank hne h]
  omega

end Joined

end Cells

end Layout
