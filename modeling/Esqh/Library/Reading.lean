import Mathlib.Data.List.Basic

/-!
Readers take a value off the front of a text and return what is left. A text
renders a value if the reader takes exactly this text off, whatever follows
that may follow it.
-/

namespace Reading

variable {α β γ : Type*}

abbrev Reader (α β : Type*) := List α → Option (β × List α)

def Reads (reader : Reader α β) (follows : List α → Prop) (text : List α) (value : β) : Prop :=
  ∀ rest, follows rest → reader (text ++ rest) = some (value, rest)

def mapped (f : β → γ) (reader : Reader α β) : Reader α γ := fun text =>
  (reader text).map fun found => (f found.1, found.2)

/-- One reader, and another one on what it leaves. -/
def andThen (reader : Reader α β) (next : β → Reader α γ) : Reader α γ := fun text =>
  (reader text).bind fun found => next found.1 found.2

/-- A reader behind any number of blanks. -/
def skipping (blank : α → Bool) (reader : Reader α β) : Reader α β := fun text =>
  reader (text.dropWhile blank)

section Combinators

variable {reader : Reader α β} {follows : List α → Prop} {text : List α} {value : β}

theorem Reads.mapped (f : β → γ) (h : Reads reader follows text value) :
    Reads (mapped f reader) follows text (f value) := by
  intro rest hrest
  rw [Reading.mapped, h rest hrest, Option.map_some]

theorem Reads.andThen {between : List α → Prop} {next : β → Reader α γ} {more : List α}
    {result : γ} (h : Reads reader between text value)
    (hnext : Reads (next value) follows more result)
    (hbetween : ∀ rest, follows rest → between (more ++ rest)) :
    Reads (andThen reader next) follows (text ++ more) result := by
  intro rest hrest
  rw [Reading.andThen, List.append_assoc, h _ (hbetween rest hrest), Option.bind_some]
  exact hnext rest hrest

variable {blank : α → Bool}

theorem dropWhile_blank_append {space : List α} (hspace : ∀ a ∈ space, blank a) {a : α}
    (ha : blank a = false) (rest : List α) :
    (space ++ a :: rest).dropWhile blank = a :: rest := by
  rw [List.dropWhile_append_of_pos hspace]
  simp [ha]

/-- Blanks in front of a text make no difference. -/
def Ignores (blank : α → Bool) (reader : Reader α β) : Prop :=
  ∀ space text, (∀ a ∈ space, blank a) → reader (space ++ text) = reader text

theorem ignores_skipping (reader : Reader α β) : Ignores blank (skipping blank reader) := by
  intro space text hspace
  rw [skipping, skipping, List.dropWhile_append_of_pos hspace]

theorem Ignores.andThen {next : β → Reader α γ} (h : Ignores blank reader) :
    Ignores blank (andThen reader next) := by
  intro space text hspace
  rw [Reading.andThen, Reading.andThen, h space text hspace]

theorem Ignores.reads {space : List α} (hignores : Ignores blank reader)
    (hspace : ∀ a ∈ space, blank a) (h : Reads reader follows text value) :
    Reads reader follows (space ++ text) value := by
  intro rest hrest
  rw [List.append_assoc, hignores space _ hspace]
  exact h rest hrest

theorem Reads.skipping {a : α} (ha : blank a = false)
    (h : Reads reader follows (a :: text) value) :
    Reads (skipping blank reader) follows (a :: text) value := by
  intro rest hrest
  have hdrop := dropWhile_blank_append (List.forall_mem_nil _) ha (text ++ rest)
  rw [Reading.skipping, List.cons_append]
  rw [List.nil_append] at hdrop
  rw [hdrop]
  exact h rest hrest

end Combinators

section Lists

theorem intercalate_cons (mark line : List α) (lines : List (List α)) :
    mark.intercalate (line :: lines) = line ++ lines.flatMap fun line => mark ++ line := by
  induction lines generalizing line with
  | nil => simp
  | cons next lines ih =>
      rw [List.intercalate_cons_cons, ih, List.flatMap_cons]
      simp only [List.append_assoc]

theorem length_le_length_flatMap_cons (separator : α) (f : β → List α) (lines : List β) :
    lines.length ≤ (lines.flatMap fun line => separator :: f line).length := by
  induction lines with
  | nil => simp
  | cons line lines ih =>
      simp only [List.flatMap_cons, List.length_append, List.length_cons]
      omega

end Lists

section Items

variable [DecidableEq α] (blank : α → Bool) (separator closing : α) (item : Reader α β)

/-- At least one item, a separator between any two, up to the closing symbol. -/
def readItems : Nat → Reader α (List β)
  | 0, _ => none
  | fuel + 1, text =>
    (item text).bind fun found =>
      match found.2.dropWhile blank with
      | [] => none
      | symbol :: rest =>
        if symbol = closing then some ([found.1], rest)
        else if symbol = separator then mapped (found.1 :: ·) (readItems fuel) rest
        else none

/-- The items of a container, up to the closing symbol. -/
def readContainer : Reader α (List β) := fun text =>
  match text.dropWhile blank with
  | [] => none
  | symbol :: rest =>
    if symbol = closing then some ([], rest)
    else readItems blank separator closing item text.length text

variable {blank separator closing item} {follows : List α → Prop} {gap final : List α}
  (hgap : ∀ rest, follows (separator :: rest))
  (hfinal : ∀ rest, follows (final ++ closing :: rest))
  (hblank : ∀ a ∈ final, blank a)
  (hseparator : blank separator = false) (hclosing : blank closing = false)
  (hne : separator ≠ closing)

include hgap hfinal hblank hseparator hclosing hne

/-- Items that all begin with the same gap. -/
theorem readItems_gap {line : List α} {value : β} {lines : List (List α)} {values : List β}
    (hline : Reads item follows (gap ++ line) value)
    (hlines : List.Forall₂ (fun line value => Reads item follows (gap ++ line) value)
      lines values)
    {fuel : Nat} (hfuel : lines.length < fuel) (rest : List α) :
    readItems blank separator closing item fuel
        (gap ++ line ++ (lines.flatMap fun line => separator :: gap ++ line) ++ final ++
          closing :: rest) =
      some (value :: values, rest) := by
  induction hlines generalizing line value fuel with
  | nil =>
      obtain ⟨fuel, rfl⟩ := Nat.exists_eq_add_of_lt hfuel
      have hitem := hline (final ++ closing :: rest) (hfinal rest)
      rw [List.flatMap_nil, List.append_nil, List.append_assoc, readItems, hitem,
        Option.bind_some]
      simp [dropWhile_blank_append hblank hclosing]
  | @cons next nextValue lines values hnext _ ih =>
      obtain ⟨fuel, rfl⟩ := Nat.exists_eq_add_of_lt (Nat.zero_lt_of_lt hfuel)
      have hrest := ih hnext (by simpa using hfuel : lines.length < fuel)
      have hitem := hline (separator :: (gap ++ next ++
        (lines.flatMap fun line => separator :: gap ++ line) ++ final ++ closing :: rest))
        (hgap _)
      have htext : gap ++ line ++
          ((next :: lines).flatMap fun line => separator :: gap ++ line) ++ final ++
            closing :: rest =
          gap ++ line ++ separator :: (gap ++ next ++
            (lines.flatMap fun line => separator :: gap ++ line) ++ final ++ closing :: rest) := by
        simp
      rw [htext, Nat.zero_add, readItems, hitem, Option.bind_some]
      simp only [List.dropWhile_cons, hseparator, Bool.false_eq_true, if_false, if_neg hne,
        if_true, mapped, hrest, Option.map_some]

omit hgap hfinal hblank hseparator hne in
theorem reads_container_nil (follows : List α → Prop) :
    Reads (readContainer blank separator closing item) follows [closing] [] := by
  intro rest _
  simp [readContainer, hclosing]

/-- The items of a container on several lines, at most one of them empty. -/
theorem reads_container (hspace : ∀ a ∈ gap, blank a) {lines : List (List α)} {values : List β}
    (hlines : List.Forall₂ (fun line value => Reads item follows (gap ++ line) value)
      lines values)
    (hhead : ∀ line ∈ lines, ∃ a more, line = a :: more ∧ blank a = false ∧ a ≠ closing)
    (hnonempty : lines ≠ []) (after : List α → Prop) :
    Reads (readContainer blank separator closing item) after
      (gap ++ (separator :: gap).intercalate lines ++ final ++ [closing]) values := by
  intro rest _
  cases hlines with
  | nil => exact absurd rfl hnonempty
  | @cons line value lines values hline hlines =>
      obtain ⟨a, more, rfl, ha, hother⟩ := hhead line List.mem_cons_self
      have hdrop := dropWhile_blank_append hspace ha
      have hfuel : lines.length < (gap ++ a :: more ++
          (lines.flatMap fun line => separator :: gap ++ line) ++ final ++
            closing :: rest).length := by
        have hlines := length_le_length_flatMap_cons separator (gap ++ ·) lines
        simp only [List.length_append, List.length_cons, List.cons_append] at hlines ⊢
        omega
      have hitems := readItems_gap hgap hfinal hblank hseparator hclosing hne hline hlines
        hfuel rest
      have htext : gap ++ (separator :: gap).intercalate ((a :: more) :: lines) ++ final ++
          [closing] ++ rest =
          gap ++ a :: (more ++ (lines.flatMap fun line => separator :: gap ++ line) ++ final ++
            closing :: rest) := by
        rw [intercalate_cons]
        simp
      have hsame : gap ++ a :: more ++ (lines.flatMap fun line => separator :: gap ++ line) ++
          final ++ closing :: rest =
          gap ++ a :: (more ++ (lines.flatMap fun line => separator :: gap ++ line) ++ final ++
            closing :: rest) := by
        simp
      rw [hsame] at hitems
      rw [htext, readContainer, hdrop]
      simpa only [if_neg hother] using hitems

end Items

end Reading
